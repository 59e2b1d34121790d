import ResultSet.Proofs.Row.Grammar

/-!
# Rows written again

A row that is read need not have been written by `RowBuffer`: its lengths may be in a longer
form than necessary.  Written again, such a row gets the shortest form of every length.

* `LengthPrefix.IsForm` are the forms of a length and `LengthPrefix.IsShortest` is the shortest of
  them.  `isShortest_iff` says that this is the form that `LengthPrefix.encode` writes, which is
  decided on the bounds of the four forms.
* `encodeCell_length_le` and `eq_encodeCell_iff` carry this over to cells, and
  `encodeCells_length_le` and `encodeCells_eq_iff` by induction to rows.
* `RowBuffer.pushAll` writes a row in one go, `pushAll_eq_ok_iff` is the whole of it.
* `pushAll_decoded` puts decoding and writing together.
-/

namespace ResultSet

/-! ## Little-endian digits -/

/-- Digits are written again as they were. -/
theorem littleEndian_ofLittleEndian (digits : Bytes) :
    littleEndian digits.length (ofLittleEndian digits) = digits := by
  induction digits with
  | nil => rfl
  | cons digit digits ih =>
    have hdigit : digit.toNat < 256 := digit.toNat_lt
    have hfirst : (digit.toNat + 256 * ofLittleEndian digits) % 256 = digit.toNat := by omega
    have hrest : (digit.toNat + 256 * ofLittleEndian digits) / 256 = ofLittleEndian digits := by
      omega
    rw [List.length_cons, ofLittleEndian, littleEndian, hfirst, hrest, ih, UInt8.ofNat_toNat]

namespace LengthPrefix

/-! ## The forms of a length -/

/-- The bytes announce a length, in whatever form. -/
inductive IsForm : Nat → Bytes → Prop where
  | short {length : Nat} (hlength : length ≤ 250) : IsForm length [UInt8.ofNat length]
  | long {mark : UInt8} {digits : Bytes} (hform : (mark, digits.length) ∈ longForms) :
      IsForm (ofLittleEndian digits) (mark :: digits)

/-- The bytes announce a length and no shorter ones do. -/
def IsShortest (length : Nat) (form : Bytes) : Prop :=
  IsForm length form ∧ ∀ other, IsForm length other → form.length ≤ other.length

/-- A long form is known by its width. -/
theorem eq_of_mem_longForms {mark mark' : UInt8} {width : Nat} (h : (mark, width) ∈ longForms)
    (h' : (mark', width) ∈ longForms) : mark = mark' := by
  simp only [longForms, List.mem_cons, List.not_mem_nil, or_false, Prod.mk.injEq] at h h'
  obtain ⟨rfl, rfl⟩ | ⟨rfl, rfl⟩ | ⟨rfl, rfl⟩ := h <;> simpa [eq_comm] using h'

/-- A length is written in one byte, or in the first of the long forms that it fits. -/
theorem encode_cases (length : Nat) :
    (length ≤ 250 ∧ size length = 1 ∧ encode length = [UInt8.ofNat length]) ∨
      ∃ mark width, (mark, width) ∈ longForms ∧ size length = width + 1 ∧
        encode length = mark :: littleEndian width length ∧
        (length < 2 ^ (64 : Nat) → length < 256 ^ width) ∧
        ∀ other ∈ longForms, length < 256 ^ other.2 → width ≤ other.2 := by
  have hfirst (width : Nat) (h : ∀ narrower < width, (narrower = 2 ∨ narrower = 3) →
      256 ^ narrower ≤ length) (hwidth : width ≤ 8) :
      ∀ other ∈ longForms, length < 256 ^ other.2 → width ≤ other.2 := by
    intro other hother hlt
    refine Nat.le_of_not_lt fun hnarrower => ?_
    simp only [longForms, List.mem_cons, List.not_mem_nil, or_false] at hother
    obtain rfl | rfl | rfl := hother
    · exact absurd (h 2 hnarrower (.inl rfl)) (Nat.not_le.2 hlt)
    · exact absurd (h 3 hnarrower (.inr rfl)) (Nat.not_le.2 hlt)
    · exact absurd hwidth (Nat.not_le.2 hnarrower)
  unfold size encode
  by_cases h1 : length ≤ 250
  · rw [if_pos h1, if_pos h1]
    exact .inl ⟨h1, rfl, rfl⟩
  rw [if_neg h1, if_neg h1]
  right
  by_cases h2 : length ≤ 0xFFFF
  · rw [if_pos h2, if_pos h2]
    refine ⟨twoByteMark, 2, by decide, rfl, rfl, by omega, hfirst 2 ?_ (by decide)⟩
    rintro narrower hlt (rfl | rfl) <;> omega
  rw [if_neg h2, if_neg h2]
  by_cases h3 : length ≤ 0xFFFFFF
  · rw [if_pos h3, if_pos h3]
    refine ⟨threeByteMark, 3, by decide, rfl, rfl, by omega, hfirst 3 ?_ (by decide)⟩
    rintro narrower hlt (rfl | rfl) <;> omega
  · rw [if_neg h3, if_neg h3]
    refine ⟨eightByteMark, 8, by decide, rfl, rfl, by omega, hfirst 8 ?_ (by decide)⟩
    rintro narrower hlt (rfl | rfl) <;> omega

namespace IsForm

variable {length : Nat} {form : Bytes}

/-- A length that is announced fits 64 bits. -/
theorem length_lt (h : IsForm length form) : length < 2 ^ (64 : Nat) := by
  cases h with
  | short hlength => omega
  | @long mark digits hform =>
    have hlt := ofLittleEndian_lt digits
    have hwidth : 256 ^ digits.length ≤ 256 ^ 8 :=
      Nat.pow_le_pow_right (by omega) (le_of_mem_longForms hform)
    omega

/-- No form is shorter than the one that is written. -/
theorem size_le (h : IsForm length form) : size length ≤ form.length := by
  cases h with
  | short hlength =>
    rw [size, if_pos hlength]
    exact Nat.le_refl 1
  | @long mark digits hform =>
    obtain ⟨-, hsize, -⟩ | ⟨mark', width, -, hsize, -, -, hfirst⟩ :=
      encode_cases (ofLittleEndian digits)
    · rw [hsize]
      exact Nat.succ_pos _
    · rw [hsize]
      exact Nat.succ_le_succ (hfirst _ hform (ofLittleEndian_lt digits))

/-- Every other form is longer than the one that is written. -/
theorem eq_encode (h : IsForm length form) (hsame : form.length = size length) :
    form = encode length := by
  cases h with
  | short hlength => rw [encode, if_pos hlength]
  | @long mark digits hform =>
    rw [List.length_cons] at hsame
    obtain ⟨-, hsize, -⟩ | ⟨mark', width, hform', hsize, hencode, -⟩ :=
      encode_cases (ofLittleEndian digits)
    · -- a long form has digits
      have hnone : digits.length = 0 := by omega
      rw [hnone] at hform
      exact absurd hform (by simp [longForms])
    · obtain rfl : width = digits.length := by omega
      rw [hencode, littleEndian_ofLittleEndian, eq_of_mem_longForms hform hform']

end IsForm

/-- What is written for a length announces it. -/
theorem isForm_encode {length : Nat} (h : length < 2 ^ (64 : Nat)) :
    IsForm length (encode length) := by
  obtain ⟨hshort, -, hencode⟩ | ⟨mark, width, hform, -, hencode, hfits, -⟩ := encode_cases length
  · rw [hencode]
    exact .short hshort
  · have hwidth : (mark, (littleEndian width length).length) ∈ longForms := by
      rwa [littleEndian_length]
    have hannounced := IsForm.long hwidth
    rw [ofLittleEndian_littleEndian width length (hfits h)] at hannounced
    rwa [hencode]

/-- The shortest form of a length is the one that is written. -/
theorem isShortest_iff {length : Nat} {form : Bytes} (h : IsForm length form) :
    IsShortest length form ↔ form = encode length := by
  constructor
  · rintro ⟨-, hshortest⟩
    have hle := hshortest _ (isForm_encode h.length_lt)
    rw [encode_length] at hle
    exact h.eq_encode (Nat.le_antisymm hle h.size_le)
  · rintro rfl
    refine ⟨h, fun other hother => ?_⟩
    rw [encode_length]
    exact hother.size_le

end LengthPrefix

/-! ## Cells -/

open LengthPrefix (IsForm IsShortest)

/-- A cell of a value is a form of its length in front of it. -/
theorem isCell_some_iff {value cell : Bytes} :
    IsCell (some value) cell ↔ ∃ form, IsForm value.length form ∧ cell = form ++ value := by
  constructor
  · intro h
    cases h with
    | short hlength => exact ⟨_, .short hlength, rfl⟩
    | @long mark width digits _ hform hdigits hlength =>
      subst hdigits
      have hannounced := IsForm.long hform
      rw [hlength] at hannounced
      exact ⟨_, hannounced, rfl⟩
  · rintro ⟨form, hform, rfl⟩
    generalize hlength : value.length = length at hform
    cases hform with
    | short hshort =>
      subst hlength
      exact .short hshort
    | long hlong => exact .long hlong rfl hlength.symm

theorem IsCell.fitsPrefix {value : Option Bytes} {cell : Bytes} (h : IsCell value cell) :
    FitsPrefix value := by
  intro bytes hbytes
  cases Option.mem_def.1 hbytes
  obtain ⟨form, hform, -⟩ := isCell_some_iff.1 h
  exact hform.length_lt

/-- What is written for a value is a cell of it. -/
theorem isCell_encodeCell {value : Option Bytes} (h : FitsPrefix value) :
    IsCell value (encodeCell value) := by
  cases value with
  | none => exact .null
  | some bytes => exact isCell_some_iff.2 ⟨_, LengthPrefix.isForm_encode (h bytes rfl), rfl⟩

/-- No cell of a value is shorter than the one that is written. -/
theorem IsCell.encodeCell_length_le {value : Option Bytes} {cell : Bytes} (h : IsCell value cell) :
    (encodeCell value).length ≤ cell.length := by
  cases value with
  | none =>
    cases h
    exact Nat.le_refl 1
  | some bytes =>
    obtain ⟨form, hform, rfl⟩ := isCell_some_iff.1 h
    have hsize := hform.size_le
    rw [encodeCell_some_length, List.length_append]
    omega

/-- The length in front of a value is in its shortest form. -/
def HasShortestPrefix (value : Option Bytes) (cell : Bytes) : Prop :=
  ∀ bytes ∈ value, ∃ form, cell = form ++ bytes ∧ IsShortest bytes.length form

/-- A cell is written again as it was exactly if its prefix is in the shortest form. -/
theorem IsCell.eq_encodeCell_iff {value : Option Bytes} {cell : Bytes} (h : IsCell value cell) :
    encodeCell value = cell ↔ HasShortestPrefix value cell := by
  cases value with
  | none =>
    cases h
    exact iff_of_true rfl fun bytes hbytes => absurd hbytes (Option.not_mem_none bytes)
  | some bytes =>
    obtain ⟨form, hform, rfl⟩ := isCell_some_iff.1 h
    constructor
    · intro hcell bytes' hbytes
      cases Option.mem_def.1 hbytes
      have hencode : form = LengthPrefix.encode bytes.length :=
        (List.append_cancel_right hcell).symm
      exact ⟨form, rfl, (LengthPrefix.isShortest_iff hform).2 hencode⟩
    · intro hshortest
      obtain ⟨other, hother, hleast⟩ := hshortest bytes rfl
      obtain rfl := List.append_cancel_right hother
      rw [(LengthPrefix.isShortest_iff hform).1 hleast]
      rfl

/-! ## Rows -/

/-- The lengths of values that were read can be announced. -/
theorem Parses.fitsPrefix {cells : List (Option Bytes × Bytes)} {row : Bytes}
    (h : Parses cells row) : ∀ value ∈ cells.map Prod.fst, FitsPrefix value := by
  intro value hvalue
  obtain ⟨cell, hcell, rfl⟩ := List.mem_map.1 hvalue
  exact (h.isCell cell hcell).fitsPrefix

/-- What is written for values is a sequence of cells of them. -/
theorem parses_encodeCells {values : List (Option Bytes)} (h : ∀ value ∈ values, FitsPrefix value) :
    Parses (values.map fun value => (value, encodeCell value)) (encodeCells values) where
  isCell cell hcell := by
    obtain ⟨value, hvalue, rfl⟩ := List.mem_map.1 hcell
    exact isCell_encodeCell (h value hvalue)
  bytes := List.flatMap_map ..

/-- No row of values is shorter than the one that is written. -/
theorem Parses.encodeCells_length_le {cells : List (Option Bytes × Bytes)} {row : Bytes}
    (h : Parses cells row) : (encodeCells (cells.map Prod.fst)).length ≤ row.length := by
  induction cells generalizing row with
  | nil => exact Nat.zero_le _
  | cons first cells ih =>
    obtain ⟨value, cell⟩ := first
    obtain ⟨hcell, hcells, rfl⟩ := h.of_cons
    have hfirst := hcell.encodeCell_length_le
    have hrest := ih hcells
    rw [List.map_cons, encodeCells_cons, List.length_append, List.length_append]
    exact Nat.add_le_add hfirst hrest

/-- A row is written again as it was exactly if every prefix in it is in the shortest form. -/
theorem Parses.encodeCells_eq_iff {cells : List (Option Bytes × Bytes)} {row : Bytes}
    (h : Parses cells row) :
    encodeCells (cells.map Prod.fst) = row ↔ ∀ cell ∈ cells, HasShortestPrefix cell.1 cell.2 := by
  have hcells : (∀ cell ∈ cells, HasShortestPrefix cell.1 cell.2) ↔
      ∀ cell ∈ cells, encodeCell cell.1 = cell.2 :=
    forall₂_congr fun cell hcell => (h.isCell cell hcell).eq_encodeCell_iff.symm
  rw [hcells]
  constructor
  · intro hrow
    -- the row has one decomposition into cells, so the cells are the written ones
    have hwritten := parses_encodeCells h.fitsPrefix
    rw [hrow] at hwritten
    have hsame := hwritten.unique h
    intro cell hcell
    rw [← hsame] at hcell
    obtain ⟨value, -, rfl⟩ := List.mem_map.1 hcell
    rfl
  · intro hsame
    rw [← h.bytes, encodeCells, List.flatMap_map]
    rw [List.flatMap_def, List.flatMap_def, List.map_congr_left hsame]

/-! ## Writing a row in one go -/

namespace RowBuffer

/-- The row with more values behind its own, if every push succeeds. -/
def pushAll (b : RowBuffer) (values : List WireValue) : Except RowError RowBuffer :=
  values.foldlM (fun b v => b.push v) b

/-- All pushes succeed exactly if the row stays within its limit, and they append the cells of
the values. -/
theorem pushAll_eq_ok_iff {b row : RowBuffer} {values : List WireValue}
    (hb : b.bytes.length ≤ b.limit) :
    b.pushAll values = .ok row ↔
      b.bytes.length + (encodeCells (values.map WireValue.text)).length ≤ b.limit ∧
        row = ⟨b.bytes ++ encodeCells (values.map WireValue.text), b.limit⟩ := by
  induction values generalizing b with
  | nil =>
    show Except.ok b = Except.ok row ↔ _
    rw [List.map_nil, encodeCells_nil, List.append_nil, List.length_nil, Nat.add_zero,
      Except.ok.injEq, eq_comm, and_iff_right hb]
  | cons v values ih =>
    have hpush := push_eq b v
    rw [List.map_cons, encodeCells_cons, List.length_append, ← List.append_assoc]
    by_cases hle : b.bytes.length + (encodeCell v.text).length ≤ b.limit
    · rw [if_pos hle] at hpush
      have hstep : b.pushAll (v :: values) =
          pushAll ⟨b.bytes ++ encodeCell v.text, b.limit⟩ values := by
        rw [pushAll, List.foldlM_cons, hpush]
        rfl
      have hroom : (b.bytes ++ encodeCell v.text).length ≤ b.limit := by
        rw [List.length_append]
        exact hle
      rw [hstep, ih hroom]
      dsimp only
      rw [List.length_append, Nat.add_assoc]
    · rw [if_neg hle] at hpush
      rw [pushAll, List.foldlM_cons, hpush]
      constructor
      · intro h
        cases h
      · rintro ⟨htotal, -⟩
        omega

/-- A row that starts empty consists of the cells of its values. -/
theorem pushAll_empty {limit : Nat} {values : List WireValue} {row : RowBuffer} :
    (empty limit).pushAll values = .ok row ↔
      (encodeCells (values.map WireValue.text)).length ≤ limit ∧
        row = ⟨encodeCells (values.map WireValue.text), limit⟩ := by
  have hempty : (empty limit).bytes.length ≤ (empty limit).limit := Nat.zero_le limit
  rw [pushAll_eq_ok_iff hempty]
  show 0 + _ ≤ limit ∧ row = ⟨[] ++ _, limit⟩ ↔ _
  rw [Nat.zero_add, List.nil_append]

end RowBuffer

/-- A value that was read as a value to be written. -/
def WireValue.ofRead : Option Bytes → WireValue
  | none => .null
  | some data => .bytes data

theorem WireValue.text_ofRead (value : Option Bytes) : (WireValue.ofRead value).text = value := by
  cases value <;> rfl

theorem WireValue.map_text_ofRead (values : List (Option Bytes)) :
    (values.map WireValue.ofRead).map WireValue.text = values := by
  rw [List.map_map]
  exact (List.map_congr_left fun value _ => WireValue.text_ofRead value).trans (List.map_id' values)

/-- A row that can be read can be written again under any limit that it keeps to.  It does not
become longer and is read as the same values, and it comes out as it was exactly if every length
in it was in its shortest form. -/
theorem RowBuffer.pushAll_decoded {row : Bytes} {values : List (Option Bytes)}
    (hdecode : decodeRow row = .ok values) {limit : Nat} (hlimit : row.length ≤ limit) :
    ∃ again, (empty limit).pushAll (values.map WireValue.ofRead) = .ok again ∧
      again.bytes.length ≤ row.length ∧ decodeRow again.bytes = .ok values ∧
      (again.bytes = row ↔ ∀ cells, Parses cells row →
        ∀ cell ∈ cells, HasShortestPrefix cell.1 cell.2) := by
  obtain ⟨cells, hparse, rfl⟩ := decodeRow_eq_ok_iff.1 hdecode
  have hlength := hparse.encodeCells_length_le
  refine ⟨⟨encodeCells (cells.map Prod.fst), limit⟩, ?_, hlength, ?_, ?_⟩
  · rw [pushAll_empty, WireValue.map_text_ofRead]
    exact ⟨Nat.le_trans hlength hlimit, rfl⟩
  · exact decodeRow_encodeCells_of_fits hparse.fitsPrefix
  · rw [hparse.encodeCells_eq_iff]
    constructor
    · intro hshortest others hothers
      rwa [hothers.unique hparse]
    · exact fun hshortest => hshortest cells hparse

/-- A value of one byte behind a length of eight bytes, a null, and an empty value behind a length
of one byte: the first length is not the shortest one, so the row gets shorter. -/
theorem RowBuffer.pushAll_decoded_overlong :
    let row : Bytes := [0xFE, 1, 0, 0, 0, 0, 0, 0, 0, 0x61, 0xFB, 0]
    decodeRow row = .ok [some [0x61], none, some []] ∧ row.length ≤ 12 ∧
      ∃ again, (empty 12).pushAll [.bytes [0x61], .null, .bytes []] = .ok again ∧
        again.bytes = [1, 0x61, 0xFB, 0] ∧
        decodeRow again.bytes = .ok [some [0x61], none, some []] ∧
        ¬∀ cells, Parses cells row → ∀ cell ∈ cells, HasShortestPrefix cell.1 cell.2 := by
  intro row
  have hdecode : decodeRow row = .ok [some [0x61], none, some []] := by cbv
  have hlimit : row.length ≤ 12 := by decide
  obtain ⟨again, hpush, -, hagain, hsame⟩ := RowBuffer.pushAll_decoded hdecode hlimit
  have hbytes : again.bytes = [1, 0x61, 0xFB, 0] := by
    rw [(pushAll_empty.1 hpush).2]
    rfl
  refine ⟨hdecode, hlimit, again, hpush, hbytes, hagain, fun hshortest => ?_⟩
  have hrow := hbytes.symm.trans (hsame.2 hshortest)
  exact absurd hrow (by decide)

end ResultSet
