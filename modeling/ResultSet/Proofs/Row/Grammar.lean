import ResultSet.Proofs.Row.Cell

/-!
# The grammar of rows

A cell stands for a value in one of five forms: the byte of a null, a length of
one byte, and a mark with a length of two, three or eight bytes, none of which has
to be the shortest one.  A row is a sequence of cells.  `IsCell` and `Parses` say
this without reading; this module says that reading is the same.

* `readCell_eq_ok_iff`: what `readCell` accepts is a cell, and every cell is
  accepted, whatever stands behind it.  So no cell is the beginning of another one,
  and `Parses.unique` follows.
* `readCell_eq_error_iff`: bytes that begin with no cell are `IllFormed`, which
  decides the error.
* `decodeRow_eq_ok_iff` and `decodeRow_eq_error_iff` carry both over to rows,
  along `exists_parse`: every row is a sequence of cells up to its end, or up to
  the first ill-formed cell.
-/

namespace ResultSet

/-! ## Cells and rows -/

/-- The marks of the longer forms of a length, with the bytes of the length. -/
def longForms : List (UInt8 × Nat) := [(0xFC, 2), (0xFD, 3), (0xFE, 8)]

/-- The bytes stand for a value, nothing for a null. -/
inductive IsCell : Option Bytes → Bytes → Prop where
  | null : IsCell none [0xFB]
  | short {value : Bytes} (hlength : value.length ≤ 250) :
      IsCell (some value) (UInt8.ofNat value.length :: value)
  /-- the length may have a shorter form -/
  | long {mark : UInt8} {width : Nat} {digits value : Bytes} (hform : (mark, width) ∈ longForms)
      (hdigits : digits.length = width) (hlength : ofLittleEndian digits = value.length) :
      IsCell (some value) (mark :: (digits ++ value))

/-- The row is the concatenation of cells, each listed behind its value. -/
structure Parses (cells : List (Option Bytes × Bytes)) (row : Bytes) : Prop where
  isCell : ∀ cell ∈ cells, IsCell cell.1 cell.2
  bytes : cells.flatMap Prod.snd = row

/-- The bytes at an offset begin with no cell, and the error that reports it: no form has
this first byte, or a cell runs past the end, which is the offset that is reported. -/
inductive IllFormed (offset : Nat) : Bytes → RowError → Prop where
  | invalid (rest : Bytes) : IllFormed offset (0xFF :: rest) (.invalidLength 0xFF offset)
  | truncated {rest more : Bytes} {value : Option Bytes} (hrest : rest ≠ []) (hmore : more ≠ [])
      (hcell : IsCell value (rest ++ more)) :
      IllFormed offset rest (.truncated (offset + rest.length))

/-! ## The first byte of a cell -/

theorem ofLittleEndian_lt (digits : Bytes) : ofLittleEndian digits < 256 ^ digits.length := by
  induction digits with
  | nil => exact Nat.one_pos
  | cons digit digits ih =>
    have hdigit : digit.toNat < 256 := digit.toNat_lt
    rw [ofLittleEndian, List.length_cons, Nat.pow_succ]
    omega

namespace LengthPrefix

theorem mark_of_mem_longForms {b : UInt8} {width : Nat} (h : (b, width) ∈ longForms) :
    mark b = .long width := by
  simp only [longForms, List.mem_cons, List.not_mem_nil, or_false, Prod.mk.injEq] at h
  obtain ⟨rfl, rfl⟩ | ⟨rfl, rfl⟩ | ⟨rfl, rfl⟩ := h <;> decide

theorem le_of_mem_longForms {b : UInt8} {width : Nat} (h : (b, width) ∈ longForms) :
    width ≤ 8 := by
  simp only [longForms, List.mem_cons, List.not_mem_nil, or_false, Prod.mk.injEq] at h
  omega

/-- What the first byte of a cell can be. -/
theorem mark_cases (b : UInt8) :
    (∃ length ≤ 250, b = UInt8.ofNat length ∧ mark b = .short length) ∨
      (b = 0xFB ∧ mark b = .null) ∨
      (∃ width, (b, width) ∈ longForms ∧ mark b = .long width) ∨
      (b = 0xFF ∧ mark b = .invalid) := by
  have hbyte : UInt8.ofNat b.toNat = b := UInt8.ofNat_toNat
  by_cases hshort : b.toNat ≤ 250
  · exact .inl ⟨b.toNat, hshort, hbyte.symm, by rw [mark, if_pos hshort]⟩
  have hlt : b.toNat < 256 := b.toNat_lt
  obtain h | h | h | h | h : b.toNat = 251 ∨ b.toNat = 252 ∨ b.toNat = 253 ∨ b.toNat = 254 ∨
      b.toNat = 255 := by omega
  all_goals
    rw [h] at hbyte
    subst hbyte
  · exact .inr (.inl ⟨rfl, by decide⟩)
  · exact .inr (.inr (.inl ⟨2, by decide, by decide⟩))
  · exact .inr (.inr (.inl ⟨3, by decide, by decide⟩))
  · exact .inr (.inr (.inl ⟨8, by decide, by decide⟩))
  · exact .inr (.inr (.inr ⟨rfl, by decide⟩))

end LengthPrefix

/-! ## One cell -/

theorem IsCell.length_pos {value : Option Bytes} {cell : Bytes} (h : IsCell value cell) :
    0 < cell.length := by
  cases h with
  | null => exact Nat.one_pos
  | short => exact Nat.succ_pos _
  | long => exact Nat.succ_pos _

/-- A cell is read, whatever stands behind it. -/
theorem readCell_of_isCell {value : Option Bytes} {cell : Bytes} (h : IsCell value cell)
    (offset : Nat) (rest : Bytes) :
    readCell offset (cell ++ rest) = .ok (value, cell.length) := by
  cases h with
  | null => rfl
  | @short value hlength =>
    have htake : (value ++ rest).take value.length = value := List.take_left
    simp only [readCell, LengthPrefix.read, List.cons_append, LengthPrefix.mark_ofNat hlength,
      List.drop_succ_cons, List.drop_zero, htake, if_true, List.length_cons, Nat.add_comm 1]
  | @long mark width digits value hform hdigits hlength =>
    have htake : (digits ++ (value ++ rest)).take width = digits := List.take_left' hdigits
    have hdrop : (digits ++ (value ++ rest)).drop width = value ++ rest := List.drop_left' hdigits
    have hvalue : (value ++ rest).take value.length = value := List.take_left
    simp only [readCell, LengthPrefix.read, List.cons_append, List.append_assoc,
      LengthPrefix.mark_of_mem_longForms hform, htake, hdigits, if_true, hlength,
      Nat.add_comm 1 width, List.drop_succ_cons, hdrop, hvalue, List.length_cons,
      List.length_append]
    congr 2
    omega

/-- A value that is cut off can be completed. -/
theorem exists_length_eq {bytes : Bytes} {length : Nat} (h : bytes.length < length) :
    ∃ more, more ≠ [] ∧ (bytes ++ more).length = length := by
  refine ⟨List.replicate (length - bytes.length) 0, ?_, ?_⟩
  · rw [Ne, List.replicate_eq_nil_iff]
    omega
  · rw [List.length_append, List.length_replicate]
    omega

/-- The bytes behind a short length hold a value, or the value is cut off. -/
theorem readCell_short {length : Nat} (hlength : length ≤ 250) (offset : Nat) (rest : Bytes) :
    (∃ value more, rest = value ++ more ∧
      IsCell (some value) (UInt8.ofNat length :: value)) ∨
      ∃ e, IllFormed offset (UInt8.ofNat length :: rest) e ∧
        readCell offset (UInt8.ofNat length :: rest) = .error e := by
  by_cases hfits : length ≤ rest.length
  · have htake : (rest.take length).length = length := List.length_take_of_le hfits
    refine .inl ⟨rest.take length, rest.drop length, (List.take_append_drop _ _).symm, ?_⟩
    have hcell : IsCell (some (rest.take length)) _ := .short (by omega)
    rwa [htake] at hcell
  · have hcut : (rest.take length).length ≠ length := by
      rw [List.length_take]
      omega
    obtain ⟨more, hmore, hvalue⟩ := exists_length_eq (Nat.lt_of_not_le hfits)
    have hcell : IsCell (some (rest ++ more)) _ := .short (by omega)
    rw [hvalue] at hcell
    refine .inr ⟨_, .truncated (List.cons_ne_nil _ _) hmore hcell, ?_⟩
    simp only [readCell, LengthPrefix.read, LengthPrefix.mark_ofNat hlength, List.drop_succ_cons,
      List.drop_zero, if_neg hcut]

/-- The bytes behind a mark hold a length and a value, or one of them is cut off. -/
theorem readCell_long {mark : UInt8} {width : Nat} (hform : (mark, width) ∈ longForms)
    (offset : Nat) (rest : Bytes) :
    (∃ value cell more, mark :: rest = cell ++ more ∧ IsCell (some value) cell) ∨
      ∃ e, IllFormed offset (mark :: rest) e ∧ readCell offset (mark :: rest) = .error e := by
  have hmark := LengthPrefix.mark_of_mem_longForms hform
  by_cases hheader : width ≤ rest.length
  · obtain ⟨digits, body, rfl, hdigits⟩ : ∃ digits body, rest = digits ++ body ∧
        digits.length = width :=
      ⟨rest.take width, rest.drop width, (List.take_append_drop _ _).symm,
        List.length_take_of_le hheader⟩
    by_cases hfits : ofLittleEndian digits ≤ body.length
    · have hlength := (List.length_take_of_le hfits).symm
      refine .inl ⟨_, _, body.drop (ofLittleEndian digits), ?_, .long hform hdigits hlength⟩
      rw [List.cons_append, List.append_assoc, List.take_append_drop]
    · have htake : (digits ++ body).take width = digits := List.take_left' hdigits
      have hdrop : (digits ++ body).drop width = body := List.drop_left' hdigits
      have hcut : (body.take (ofLittleEndian digits)).length ≠ ofLittleEndian digits := by
        rw [List.length_take]
        omega
      obtain ⟨more, hmore, hvalue⟩ := exists_length_eq (Nat.lt_of_not_le hfits)
      have hcell := IsCell.long hform hdigits hvalue.symm
      rw [← List.append_assoc, ← List.cons_append] at hcell
      refine .inr ⟨_, .truncated (List.cons_ne_nil _ _) hmore hcell, ?_⟩
      simp only [readCell, LengthPrefix.read, hmark, htake, hdigits, if_true, Nat.add_comm 1 width,
        List.drop_succ_cons, hdrop, if_neg hcut]
  · have hcut : (rest.take width).length ≠ width := by
      rw [List.length_take]
      omega
    obtain ⟨more, hmore, hdigits⟩ := exists_length_eq (Nat.lt_of_not_le hheader)
    -- The bytes of the value do not matter, as long as there are as many as announced.
    have hvalue : (List.replicate (ofLittleEndian (rest ++ more)) (0 : UInt8)).length = _ :=
      List.length_replicate
    have hcell := IsCell.long hform hdigits hvalue.symm
    rw [List.append_assoc, ← List.cons_append] at hcell
    refine .inr ⟨_, .truncated (List.cons_ne_nil _ _) (List.append_ne_nil_of_left_ne_nil hmore _)
      hcell, ?_⟩
    simp only [readCell, LengthPrefix.read, hmark, if_neg hcut, List.length_cons]
    congr 2
    omega

/-- Bytes begin with a cell, or they are ill-formed and reading says why. -/
theorem readCell_cases (offset : Nat) {row : Bytes} (hrow : row ≠ []) :
    (∃ value cell rest, row = cell ++ rest ∧ IsCell value cell) ∨
      ∃ e, IllFormed offset row e ∧ readCell offset row = .error e := by
  obtain ⟨first, rest, rfl⟩ := List.exists_cons_of_ne_nil hrow
  obtain ⟨length, hlength, rfl, -⟩ | ⟨rfl, -⟩ | ⟨width, hform, -⟩ | ⟨rfl, -⟩ :=
    LengthPrefix.mark_cases first
  · obtain ⟨value, more, rfl, hcell⟩ | hfailed := readCell_short hlength offset rest
    · exact .inl ⟨some value, _, more, rfl, hcell⟩
    · exact .inr hfailed
  · exact .inl ⟨none, [0xFB], rest, rfl, .null⟩
  · obtain ⟨value, cell, more, hrest, hcell⟩ | hfailed := readCell_long hform offset rest
    · exact .inl ⟨some value, cell, more, hrest, hcell⟩
    · exact .inr hfailed
  · exact .inr ⟨_, .invalid rest, rfl⟩

/-- What is read is a cell, and every cell is read. -/
theorem readCell_eq_ok_iff {offset size : Nat} {row : Bytes} {value : Option Bytes} :
    readCell offset row = .ok (value, size) ↔
      ∃ cell rest, row = cell ++ rest ∧ cell.length = size ∧ IsCell value cell := by
  constructor
  · intro hread
    have hrow : row ≠ [] := by
      rintro rfl
      cases hread
    obtain ⟨value, cell, rest, rfl, hcell⟩ | ⟨e, -, herror⟩ := readCell_cases offset hrow
    · rw [readCell_of_isCell hcell] at hread
      cases hread
      exact ⟨cell, rest, rfl, rfl, hcell⟩
    · rw [herror] at hread
      cases hread
  · rintro ⟨cell, rest, rfl, rfl, hcell⟩
    exact readCell_of_isCell hcell offset rest

/-- No cell is the beginning of another one. -/
theorem IsCell.unique {value other : Option Bytes} {cell twin rest more : Bytes}
    (h : IsCell value cell) (hother : IsCell other twin) (hbytes : cell ++ rest = twin ++ more) :
    value = other ∧ cell = twin ∧ rest = more := by
  have hread := readCell_of_isCell h 0 rest
  rw [hbytes, readCell_of_isCell hother 0 more] at hread
  obtain ⟨hvalue, hlength⟩ := Prod.mk.inj (Except.ok.inj hread)
  obtain ⟨hcell, hrest⟩ := List.append_inj hbytes hlength.symm
  exact ⟨hvalue.symm, hcell, hrest⟩

/-- Ill-formed bytes begin with no cell. -/
theorem IllFormed.not_isCell {offset : Nat} {row cell rest : Bytes} {value : Option Bytes}
    {e : RowError} (h : IllFormed offset row e) (hrow : row = cell ++ rest) :
    ¬ IsCell value cell := by
  intro hcell
  cases h with
  | invalid others =>
    have hread := readCell_of_isCell hcell offset rest
    rw [← hrow] at hread
    cases hread
  | @truncated _ more _ _ hmore hwhole =>
    have hbytes : (row ++ more) ++ [] = cell ++ (rest ++ more) := by
      rw [List.append_nil, hrow, List.append_assoc]
    obtain ⟨-, -, hnil⟩ := hwhole.unique hcell hbytes
    exact hmore (List.append_eq_nil_iff.1 hnil.symm).2

/-- Bytes that begin with no cell have one error. -/
theorem IllFormed.unique {offset : Nat} {row : Bytes} {e e' : RowError}
    (h : IllFormed offset row e) (h' : IllFormed offset row e') : e = e' := by
  have hmark {others more : Bytes} {value : Option Bytes}
      (hcell : IsCell value (0xFF :: others ++ more)) : False := by
    have hinvalid : IllFormed 0 _ _ := .invalid (others ++ more)
    exact hinvalid.not_isCell (List.append_nil _).symm hcell
  cases h with
  | invalid others =>
    cases h' with
    | invalid => rfl
    | truncated _ _ hcell => exact (hmark hcell).elim
  | truncated _ _ hcell =>
    cases h' with
    | invalid => exact (hmark hcell).elim
    | truncated => rfl

/-- Reading fails exactly at ill-formed bytes. -/
theorem readCell_eq_error_iff {offset : Nat} {row : Bytes} {e : RowError} (hrow : row ≠ []) :
    readCell offset row = .error e ↔ IllFormed offset row e := by
  obtain ⟨value, cell, rest, hbytes, hcell⟩ | ⟨e', hill, herror⟩ := readCell_cases offset hrow
  · constructor
    · intro h
      rw [hbytes, readCell_of_isCell hcell] at h
      cases h
    · intro h
      exact absurd hcell (h.not_isCell hbytes)
  · rw [herror]
    constructor
    · intro h
      cases h
      exact hill
    · intro h
      rw [hill.unique h]

/-! ## Rows -/

theorem Parses.nil : Parses [] [] where
  isCell _ hcell := by cases hcell
  bytes := rfl

theorem Parses.append {cells others : List (Option Bytes × Bytes)} {row rest : Bytes}
    (h : Parses cells row) (hothers : Parses others rest) :
    Parses (cells ++ others) (row ++ rest) where
  isCell cell hcell := (List.mem_append.1 hcell).elim (h.isCell cell) (hothers.isCell cell)
  bytes := by rw [List.flatMap_append, h.bytes, hothers.bytes]

theorem Parses.singleton {value : Option Bytes} {cell : Bytes} (h : IsCell value cell) :
    Parses [(value, cell)] cell where
  isCell _ hmem := by
    rw [List.mem_singleton.1 hmem]
    exact h
  bytes := List.append_nil cell

/-- A row that is not empty begins with its first cell. -/
theorem Parses.of_cons {value : Option Bytes} {cell row : Bytes}
    {cells : List (Option Bytes × Bytes)} (h : Parses ((value, cell) :: cells) row) :
    IsCell value cell ∧ Parses cells (cells.flatMap Prod.snd) ∧
      row = cell ++ cells.flatMap Prod.snd :=
  ⟨h.isCell _ List.mem_cons_self, ⟨fun other hother => h.isCell other (.tail _ hother), rfl⟩,
    h.bytes.symm⟩

theorem Parses.eq_nil {cells : List (Option Bytes × Bytes)} (h : Parses cells []) :
    cells = [] := by
  cases cells with
  | nil => rfl
  | cons first cells =>
    obtain ⟨hfirst, -, hbytes⟩ := h.of_cons
    rw [(List.append_eq_nil_iff.1 hbytes.symm).1] at hfirst
    exact absurd hfirst.length_pos (Nat.lt_irrefl 0)

/-- A row is a sequence of cells in at most one way. -/
theorem Parses.unique {cells others : List (Option Bytes × Bytes)} {row : Bytes}
    (h : Parses cells row) (hothers : Parses others row) : cells = others := by
  induction cells generalizing others row with
  | nil =>
    rw [← h.bytes] at hothers
    exact hothers.eq_nil.symm
  | cons first cells ih =>
    obtain ⟨value, cell⟩ := first
    cases others with
    | nil =>
      rw [← hothers.bytes] at h
      exact h.eq_nil
    | cons twin others =>
      obtain ⟨other, bytes⟩ := twin
      obtain ⟨hcell, hcells, hrow⟩ := h.of_cons
      obtain ⟨hcell', hothers', hrow'⟩ := hothers.of_cons
      obtain ⟨rfl, rfl, hrest⟩ := hcell.unique hcell' (hrow.symm.trans hrow')
      rw [← hrest] at hothers'
      rw [ih hcells hothers']

/-- Every row is a sequence of cells, up to its end or up to ill-formed bytes. -/
theorem exists_parse (offset : Nat) (row : Bytes) :
    ∃ cells front rest, row = front ++ rest ∧ Parses cells front ∧
      (rest = [] ∨ ∃ e, IllFormed (offset + front.length) rest e) := by
  induction hlength : row.length using Nat.strongRecOn generalizing offset row with
  | _ length ih =>
    by_cases hrow : row = []
    · exact ⟨[], [], [], hrow, .nil, .inl rfl⟩
    obtain ⟨value, cell, others, hbytes, hcell⟩ | ⟨e, hill, -⟩ := readCell_cases offset hrow
    · have hshorter : others.length < length := by
        have hpos := hcell.length_pos
        rw [← hlength, hbytes, List.length_append]
        omega
      obtain ⟨cells, front, rest, rfl, hparse, hrest⟩ :=
        ih _ hshorter (offset + cell.length) others rfl
      refine ⟨(value, cell) :: cells, cell ++ front, rest, ?_, (Parses.singleton hcell).append hparse,
        ?_⟩
      · rw [hbytes, List.append_assoc]
      · rwa [List.length_append, ← Nat.add_assoc]
    · exact ⟨[], [], row, rfl, .nil, .inr ⟨e, hill⟩⟩

/-! ## Decoding -/

/-- The values of cells are decoded in front of any other bytes. -/
theorem decodeCells_of_parses {cells : List (Option Bytes × Bytes)} {front : Bytes}
    (h : Parses cells front) (offset : Nat) (rest : Bytes) :
    decodeCells offset (front ++ rest) =
      (decodeCells (offset + front.length) rest).map fun values => cells.map Prod.fst ++ values := by
  induction cells generalizing offset front with
  | nil =>
    rw [← h.bytes]
    show decodeCells offset rest = (decodeCells offset rest).map id
    cases decodeCells offset rest <;> rfl
  | cons first cells ih =>
    obtain ⟨value, cell⟩ := first
    obtain ⟨hcell, hcells, rfl⟩ := h.of_cons
    have hpos := hcell.length_pos
    have hrow : cell ++ (cells.flatMap Prod.snd ++ rest) ≠ [] :=
      List.append_ne_nil_of_left_ne_nil (List.ne_nil_of_length_pos hpos) _
    rw [List.append_assoc, decodeCells_of_readCell (readCell_of_isCell hcell offset _) hpos hrow,
      List.drop_left, ih hcells, List.length_append, Nat.add_assoc]
    cases decodeCells _ rest <;> rfl

theorem decodeCells_of_illFormed {offset : Nat} {row : Bytes} {e : RowError}
    (h : IllFormed offset row e) : decodeCells offset row = .error e := by
  cases row with
  | nil => cases h; contradiction
  | cons first rest =>
    have hread := (readCell_eq_error_iff (List.cons_ne_nil first rest)).2 h
    rw [decodeCells, hread]

/-- A sequence of cells is decoded to their values. -/
theorem decodeRow_of_parses {cells : List (Option Bytes × Bytes)} {row : Bytes}
    (h : Parses cells row) : decodeRow row = .ok (cells.map Prod.fst) := by
  have hcells := decodeCells_of_parses h 0 []
  rw [List.append_nil, decodeCells] at hcells
  rw [decodeRow, hcells]
  show Except.ok (cells.map Prod.fst ++ []) = _
  rw [List.append_nil]

/-- Ill-formed bytes behind a sequence of cells are reported. -/
theorem decodeRow_of_illFormed {cells : List (Option Bytes × Bytes)} {front rest : Bytes}
    {e : RowError} (h : Parses cells front) (hill : IllFormed front.length rest e) :
    decodeRow (front ++ rest) = .error e := by
  rw [decodeRow, decodeCells_of_parses h, Nat.zero_add, decodeCells_of_illFormed hill]
  rfl

/-- A row is decoded to values exactly if it is a sequence of cells for them. -/
theorem decodeRow_eq_ok_iff {row : Bytes} {values : List (Option Bytes)} :
    decodeRow row = .ok values ↔ ∃ cells, Parses cells row ∧ cells.map Prod.fst = values := by
  constructor
  · intro h
    obtain ⟨cells, front, rest, rfl, hparse, rfl | ⟨e, hill⟩⟩ := exists_parse 0 row
    · rw [List.append_nil] at h ⊢
      rw [decodeRow_of_parses hparse] at h
      exact ⟨cells, hparse, Except.ok.inj h⟩
    · rw [Nat.zero_add] at hill
      rw [decodeRow_of_illFormed hparse hill] at h
      cases h
  · rintro ⟨cells, hparse, rfl⟩
    exact decodeRow_of_parses hparse

/-- A row is refused exactly if a sequence of cells ends in ill-formed bytes. -/
theorem decodeRow_eq_error_iff {row : Bytes} {e : RowError} :
    decodeRow row = .error e ↔ ∃ cells front rest, row = front ++ rest ∧ Parses cells front ∧
      IllFormed front.length rest e := by
  constructor
  · intro h
    obtain ⟨cells, front, rest, rfl, hparse, rfl | ⟨e', hill⟩⟩ := exists_parse 0 row
    · rw [List.append_nil, decodeRow_of_parses hparse] at h
      cases h
    · rw [Nat.zero_add] at hill
      rw [decodeRow_of_illFormed hparse hill] at h
      cases h
      exact ⟨cells, front, rest, rfl, hparse, hill⟩
  · rintro ⟨cells, front, rest, rfl, hparse, hill⟩
    exact decodeRow_of_illFormed hparse hill

end ResultSet
