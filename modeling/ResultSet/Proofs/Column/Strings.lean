import ResultSet.Column.Strings

/-!
# The values of a packed string column

A value of a `StringColumn` can be read through its two offsets (`get?`) or on a
walk over all of them (`toList`).  In a packed column both read the same:
`getElem?_toList`.
-/

namespace ResultSet.StringColumn

/-! ## Pieces -/

@[simp] theorem pieces_length (start : Nat) (offsets : List Nat) (chars : Bytes) :
    (pieces start offsets chars).length = offsets.length := by
  induction offsets generalizing start chars with
  | nil => rfl
  | cons stop offsets ih => rw [pieces, List.length_cons, ih, List.length_cons]

/-- A column has as many values as rows. -/
@[simp] theorem toList_length (c : StringColumn) : c.toList.length = c.length := by
  rw [toList, List.length_map, pieces_length]
  rfl

/-- Each piece lies between two neighbouring offsets. -/
theorem getElem?_pieces (start : Nat) (offsets : List Nat) (chars : Bytes)
    (h : (start :: offsets).Pairwise (· < ·)) (row : Nat) :
    (pieces start offsets (chars.drop start))[row]? =
      offsets[row]?.map fun stop =>
        (chars.drop ((start :: offsets).getD row 0)).take
          (stop - (start :: offsets).getD row 0) := by
  induction offsets generalizing start row with
  | nil => rfl
  | cons stop offsets ih =>
    cases row with
    | zero => rfl
    | succ row =>
      have hlt : start < stop := List.rel_of_pairwise_cons h List.mem_cons_self
      have hdrop : (chars.drop start).drop (stop - start) = chars.drop stop := by
        rw [List.drop_drop]
        congr 1
        omega
      rw [pieces, List.getElem?_cons_succ, List.getElem?_cons_succ, hdrop,
        ih stop (List.Pairwise.of_cons h) row]
      rfl

/-! ## Packed columns -/

/-- The offsets of a packed column stay within its bytes. -/
theorem Packed.le_length {c : StringColumn} (h : c.Packed) {stop : Nat}
    (hstop : stop ∈ c.offsets) : stop ≤ c.chars.length := by
  obtain ⟨front, hfront⟩ := List.getLast?_eq_some_iff.1 h.ends
  have hmem : stop ∈ front ++ [c.chars.length] := by
    rw [← hfront]
    exact List.mem_cons_of_mem 0 hstop
  have hordered := h.increasing
  rw [hfront] at hordered
  rcases List.mem_append.1 hmem with hbefore | hlast
  · exact Nat.le_of_lt
      ((List.pairwise_append.1 hordered).2.2 stop hbefore _ List.mem_cons_self)
  · exact Nat.le_of_eq (List.mem_singleton.1 hlast)

theorem startOf_eq_getD (c : StringColumn) (row : Nat) :
    c.startOf row = (0 :: c.offsets).getD row 0 := by
  cases row with
  | zero => rfl
  | succ row => rfl

/-- A packed column reads the same value through the offsets of a row and on the
walk over all rows. -/
theorem getElem?_toList {c : StringColumn} (h : c.Packed) (row : Nat) :
    c.toList[row]? = c.get? row := by
  have hpieces := getElem?_pieces 0 c.offsets c.chars h.increasing row
  rw [List.drop_zero] at hpieces
  rw [toList, List.getElem?_map, hpieces, get?, Option.map_map]
  cases hoffset : c.offsets[row]? with
  | none => rfl
  | some stop =>
    have hle : stop ≤ c.chars.length := h.le_length (List.mem_of_getElem? hoffset)
    show some (((c.chars.drop _).take (stop - _)).dropLast) =
      some ((c.chars.drop (c.startOf row)).take (stop - 1 - c.startOf row))
    rw [startOf_eq_getD, List.dropLast_eq_take, List.take_take, List.length_take,
      List.length_drop]
    congr 2
    omega

end ResultSet.StringColumn
