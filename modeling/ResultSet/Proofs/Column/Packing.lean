import ResultSet.Proofs.Column.Selection
import ResultSet.Proofs.Column.Strings

/-!
# String columns as lists of values

A packed column is nothing but its values: it is the column that
`StringColumn.ofList` makes of them, which is `eq_ofList_toList`.  On such a column every
operation is an operation on the list of values.

* Reading: `startOf_ofList`, `raw?_ofList`, `get?_ofList`.
* Appending: `appendRaw_ofList`, and `appendSpan_ofList` for a span of rows that is
  copied as one piece.
* Selecting and cutting: `truncate_ofList`, `filter_ofList`, `permute_ofList`,
  `replicate_ofList`.  The runs of a mask are followed in `foldl_runs`.
-/

namespace ResultSet.StringColumn

/-! ## Stored bytes -/

/-- The stored form of some values, one behind the other. -/
def stored (values : List Bytes) : Bytes := (values.map terminated).flatten

@[simp] theorem stored_nil : stored [] = [] := rfl

@[simp] theorem stored_cons (v : Bytes) (values : List Bytes) :
    stored (v :: values) = terminated v ++ stored values := rfl

@[simp] theorem stored_append (front back : List Bytes) :
    stored (front ++ back) = stored front ++ stored back := by
  simp [stored]

@[simp] theorem terminated_length (v : Bytes) : (terminated v).length = v.length + 1 := by
  simp [terminated]

@[simp] theorem dropLast_terminated (v : Bytes) : (terminated v).dropLast = v := by
  simp [terminated]

theorem ofList_eq (values : List Bytes) :
    ofList values = ⟨endsFrom 0 (values.map terminated), stored values⟩ := by
  simp [ofList, extend, appendRaw, empty, stored]

theorem ofList_chars (values : List Bytes) : (ofList values).chars = stored values := by
  rw [ofList_eq]

theorem ofList_offsets (values : List Bytes) :
    (ofList values).offsets = endsFrom 0 (values.map terminated) := by
  rw [ofList_eq]

/-! ## Ends of pieces -/

@[simp] theorem endsFrom_length (start : Nat) (rows : List Bytes) :
    (endsFrom start rows).length = rows.length := by
  induction rows generalizing start with
  | nil => rfl
  | cons row rows ih => simp [endsFrom, ih]

theorem endsFrom_append (start : Nat) (front back : List Bytes) :
    endsFrom start (front ++ back) =
      endsFrom start front ++ endsFrom (start + front.flatten.length) back := by
  induction front generalizing start with
  | nil => simp [endsFrom]
  | cons row front ih => simp [endsFrom, ih, Nat.add_assoc]

/-- Pieces that move together keep their distance from the start. -/
theorem map_endsFrom (start base distance : Nat) (rows : List Bytes) :
    (endsFrom (start + distance) rows).map (· - start + base) =
      endsFrom (base + distance) rows := by
  induction rows generalizing distance with
  | nil => rfl
  | cons row rows ih =>
    have hrest := ih (distance + row.length)
    have hfirst : start + distance + row.length - start + base =
        base + distance + row.length := by omega
    simp only [endsFrom, List.map_cons, hfirst]
    rw [Nat.add_assoc start, Nat.add_assoc base, hrest]

theorem getLast?_endsFrom (start : Nat) (rows : List Bytes) :
    (start :: endsFrom start rows).getLast? = some (start + rows.flatten.length) := by
  induction rows generalizing start with
  | nil => rfl
  | cons row rows ih =>
    rw [endsFrom, List.getLast?_cons_cons, ih]
    simp [Nat.add_assoc]

/-- A stored value has at least its zero byte. -/
theorem pairwise_endsFrom (start : Nat) (values : List Bytes) :
    (start :: endsFrom start (values.map terminated)).Pairwise (· < ·) := by
  induction values generalizing start with
  | nil => simp [endsFrom]
  | cons v values ih =>
    have hrest := ih (start + (terminated v).length)
    rw [List.map_cons, endsFrom]
    refine List.pairwise_cons.2 ⟨fun stop hstop => ?_, hrest⟩
    rcases List.mem_cons.1 hstop with rfl | hlater
    · simp
    · have hlt := List.rel_of_pairwise_cons hrest hlater
      omega

theorem getElem?_stored (start : Nat) (values : List Bytes) :
    ∀ stop ∈ endsFrom start (values.map terminated),
      (stored values)[stop - 1 - start]? = some 0 := by
  induction values generalizing start with
  | nil => simp [endsFrom]
  | cons v values ih =>
    intro stop hstop
    rw [List.map_cons, endsFrom] at hstop
    rcases List.mem_cons.1 hstop with rfl | hlater
    · have hindex : start + (terminated v).length - 1 - start = v.length := by
        rw [terminated_length]
        omega
      rw [hindex]
      simp [terminated]
    · have hlt := List.rel_of_pairwise_cons
        (pairwise_endsFrom (start + (terminated v).length) values) hlater
      have hshift : stop - 1 - start - (terminated v).length =
          stop - 1 - (start + (terminated v).length) := by omega
      rw [stored_cons, List.getElem?_append_right (by omega), hshift]
      exact ih _ stop hlater

/-! ## Columns of values -/

theorem packed_ofList (values : List Bytes) : (ofList values).Packed where
  increasing := by
    rw [ofList_offsets]
    exact pairwise_endsFrom 0 values
  ends := by
    rw [ofList_offsets, ofList_chars, getLast?_endsFrom, Nat.zero_add]
    rfl
  terminated := by
    rw [ofList_offsets, ofList_chars]
    exact getElem?_stored 0 values

theorem pieces_endsFrom (start : Nat) (rows : List Bytes) :
    pieces start (endsFrom start rows) rows.flatten = rows := by
  induction rows generalizing start with
  | nil => rfl
  | cons row rows ih => simp [endsFrom, pieces, ih]

@[simp] theorem pieces_ofList (values : List Bytes) :
    pieces 0 (ofList values).offsets (ofList values).chars = values.map terminated := by
  rw [ofList_offsets, ofList_chars]
  exact pieces_endsFrom 0 _

@[simp] theorem toList_ofList (values : List Bytes) : (ofList values).toList = values := by
  rw [toList, pieces_ofList, List.map_map]
  exact (List.map_congr_left fun v _ => dropLast_terminated v).trans (List.map_id' values)

@[simp] theorem length_ofList (values : List Bytes) : (ofList values).length = values.length := by
  rw [← toList_length, toList_ofList]

private theorem head_le_of_getLast? {start : Nat} {offsets : List Nat} {stop : Nat}
    (hincreasing : (start :: offsets).Pairwise (· < ·))
    (hlast : (start :: offsets).getLast? = some stop) : start ≤ stop := by
  rcases List.mem_cons.1 (List.mem_of_getLast? hlast) with rfl | hmem
  · exact Nat.le_refl _
  · exact Nat.le_of_lt (List.rel_of_pairwise_cons hincreasing hmem)

/-- Offsets that increase up to the end of the bytes, with a zero byte in front of
each, are the ends of stored values. -/
theorem eq_stored_of_pieces {start : Nat} {offsets : List Nat} {chars : Bytes}
    (hincreasing : (start :: offsets).Pairwise (· < ·))
    (hends : (start :: offsets).getLast? = some (start + chars.length))
    (hterminated : ∀ o ∈ offsets, chars[o - 1 - start]? = some 0) :
    let values := (pieces start offsets chars).map List.dropLast
    offsets = endsFrom start (values.map terminated) ∧ chars = stored values := by
  induction offsets generalizing start chars with
  | nil =>
    simp only [List.getLast?_singleton, Option.some.injEq] at hends
    have hempty : chars = [] := List.eq_nil_of_length_eq_zero (by omega)
    simp [pieces, endsFrom, hempty]
  | cons stop offsets ih =>
    have hlt : start < stop := List.rel_of_pairwise_cons hincreasing List.mem_cons_self
    rw [List.getLast?_cons_cons] at hends
    have hle : stop ≤ start + chars.length := head_le_of_getLast? hincreasing.of_cons hends
    obtain ⟨hoffsets, hchars⟩ := @ih stop (chars.drop (stop - start)) hincreasing.of_cons
      (by rw [hends, List.length_drop]; congr 1; omega)
      (fun o ho => by
        have hbehind : stop < o := List.rel_of_pairwise_cons hincreasing.of_cons ho
        rw [List.getElem?_drop, ← hterminated o (List.mem_cons_of_mem _ ho)]
        congr 1
        omega)
    -- the first piece ends with the zero byte in front of its offset
    have hpiece : terminated (chars.take (stop - start)).dropLast = chars.take (stop - start) := by
      have hzero := hterminated stop List.mem_cons_self
      have hlength : (chars.take (stop - start)).length = stop - start := by
        rw [List.length_take]
        omega
      have hlast : (chars.take (stop - start)).getLast? = some 0 := by
        rw [List.getLast?_eq_getElem?, hlength, List.getElem?_take_of_lt (by omega), ← hzero]
        congr 1
        omega
      obtain ⟨front, hfront⟩ := List.getLast?_eq_some_iff.1 hlast
      rw [hfront, List.dropLast_concat, terminated]
    have hlength : start + (chars.take (stop - start)).length = stop := by
      rw [List.length_take]
      omega
    simp only [pieces, List.map_cons, endsFrom, stored_cons, hpiece, hlength]
    refine ⟨congrArg _ hoffsets, ?_⟩
    rw [← hchars, List.take_append_drop]

/-- A packed column is the column of its values. -/
theorem eq_ofList_toList {c : StringColumn} (h : c.Packed) : c = ofList c.toList := by
  obtain ⟨hoffsets, hchars⟩ := eq_stored_of_pieces h.increasing
    (by rw [h.ends, Nat.zero_add]) (by simpa using h.terminated)
  rw [ofList_eq, toList, ← hoffsets, ← hchars]

/-! ## Reading -/

theorem endsFrom_take_length {values : List Bytes} {size : Nat} (h : size ≤ values.length) :
    (endsFrom 0 ((values.take size).map terminated)).length = size := by
  rw [endsFrom_length, List.length_map, List.length_take]
  omega

theorem startOf_ofList {values : List Bytes} {row : Nat} (h : row ≤ values.length) :
    (ofList values).startOf row = (stored (values.take row)).length := by
  have hsplit : (values.map terminated) =
      (values.take row).map terminated ++ (values.drop row).map terminated := by
    rw [← List.map_append, List.take_append_drop]
  cases row with
  | zero => simp [startOf]
  | succ row =>
    have hlast := getLast?_endsFrom 0 ((values.take (row + 1)).map terminated)
    have hfront := endsFrom_take_length h
    rw [startOf, if_neg (Nat.succ_ne_zero row), ofList_offsets, hsplit, endsFrom_append,
      List.getD_eq_getElem?_getD, List.getElem?_append_left (by omega)]
    rw [List.getLast?_eq_getElem?, List.length_cons, hfront] at hlast
    simp only [Nat.add_sub_cancel] at hlast ⊢
    rw [List.getElem?_cons_succ] at hlast
    rw [hlast, Nat.zero_add]
    rfl

/-- The bytes of a span of rows. -/
theorem slice_ofList (values : List Bytes) {start stop : Nat} (hstart : start ≤ stop) :
    (ofList values).slice (stored (values.take start)).length
      (stored (values.take stop)).length = stored ((values.drop start).take (stop - start)) := by
  have hsplit : values.take stop =
      values.take start ++ (values.drop start).take (stop - start) := by
    rw [← List.take_add, Nat.add_sub_cancel' hstart]
  have hall : stored values = stored (values.take start) ++
      (stored ((values.drop start).take (stop - start)) ++ stored (values.drop stop)) := by
    rw [← List.append_assoc, ← stored_append, ← hsplit, ← stored_append, List.take_append_drop]
  rw [slice, ofList_chars, hall, List.drop_left, hsplit, stored_append, List.length_append,
    Nat.add_sub_cancel_left, List.take_left]

theorem getElem?_pieces_zero {c : StringColumn} (h : c.Packed) (row : Nat) :
    (pieces 0 c.offsets c.chars)[row]? = c.raw? row := by
  have hpieces := getElem?_pieces 0 c.offsets c.chars h.increasing row
  rw [List.drop_zero, ← startOf_eq_getD] at hpieces
  exact hpieces

theorem raw?_ofList (values : List Bytes) (row : Nat) :
    (ofList values).raw? row = values[row]?.map terminated := by
  rw [← getElem?_pieces_zero (packed_ofList values), pieces_ofList, List.getElem?_map]

theorem get?_ofList (values : List Bytes) (row : Nat) :
    (ofList values).get? row = values[row]? := by
  rw [← getElem?_toList (packed_ofList values), toList_ofList]

/-! ## Appending -/

/-- Stored values are laid out behind those that are there. -/
theorem appendRaw_ofList (values more : List Bytes) :
    (ofList values).appendRaw (more.map terminated) = ofList (values ++ more) := by
  rw [appendRaw, ofList_eq, ofList_eq, List.map_append, endsFrom_append, stored_append,
    Nat.zero_add]
  rfl

theorem extend_ofList (values more : List Bytes) :
    (ofList values).extend more = ofList (values ++ more) :=
  appendRaw_ofList values more

/-- The offsets of a span of rows are the ends of its values, counted from where it
begins. -/
theorem span_offsets_ofList (values : List Bytes) {start stop : Nat} (hstart : start ≤ stop)
    (hstop : stop ≤ values.length) :
    ((ofList values).offsets.drop start).take (stop - start) =
      endsFrom (stored (values.take start)).length
        (((values.drop start).take (stop - start)).map terminated) := by
  generalize hspan : (values.drop start).take (stop - start) = span
  have hrest : values.drop stop = (values.drop start).drop (stop - start) := by
    rw [List.drop_drop, Nat.add_sub_cancel' hstart]
  have hsplit : values = values.take start ++ (span ++ values.drop stop) := by
    rw [← hspan, hrest, List.take_append_drop, List.take_append_drop]
  have hfront := endsFrom_take_length (Nat.le_trans hstart hstop)
  have hcount : span.length = stop - start := by
    rw [← hspan, List.length_take, List.length_drop]
    omega
  rw [ofList_offsets, hsplit]
  rw [List.map_append, List.map_append, endsFrom_append, endsFrom_append]
  rw [List.drop_left' hfront, List.take_left' (by simp [hcount])]
  rw [← hsplit, Nat.zero_add]
  rfl

/-- A span of rows that is copied as one piece, its offsets moved along, is the slice
of the values. -/
theorem appendSpan_ofList (values others : List Bytes) {start stop : Nat}
    (hstop : stop ≤ others.length) :
    (ofList values).appendSpan (ofList others) start stop =
      ofList (values ++ (others.drop start).take (stop - start)) := by
  by_cases hle : stop ≤ start
  · rw [appendSpan, if_pos hle, Nat.sub_eq_zero_of_le hle, List.take_zero, List.append_nil]
  · have hstart : start ≤ stop := by omega
    rw [appendSpan, if_neg hle]
    dsimp only
    rw [startOf_ofList (by omega), startOf_ofList hstop, slice_ofList others hstart,
      span_offsets_ofList others hstart hstop, ofList_chars]
    generalize (others.drop start).take (stop - start) = span
    -- the offsets keep their distance from the start of the span
    have hmoved := map_endsFrom (stored (others.take start)).length (stored values).length 0
      (span.map terminated)
    rw [Nat.add_zero, Nat.add_zero] at hmoved
    rw [hmoved, ofList_offsets, ofList_eq, List.map_append, endsFrom_append, stored_append,
      Nat.zero_add]
    rfl

theorem appendRow_ofList (values others : List Bytes) {index : Nat} (h : index < others.length) :
    (ofList values).appendRow (ofList others) index =
      .ok (ofList (values ++ (others.drop index).take 1)) := by
  have hrow : ((ofList others).raw? index).toList =
      ((others.drop index).take 1).map terminated := by
    rw [raw?_ofList, List.getElem?_eq_getElem h, List.drop_eq_getElem_cons h]
    rfl
  rw [appendRow, Selection.checkIndex, length_ofList, if_pos h, hrow]
  exact congrArg Except.ok (appendRaw_ofList _ _)

theorem appendRange_ofList (values others : List Bytes) {start count : Nat}
    (h : start + count ≤ others.length) :
    (ofList values).appendRange (ofList others) start count =
      .ok (ofList (values ++ (others.drop start).take count)) := by
  have hspan : (ofList values).appendSpan (ofList others) start (start + count) =
      ofList (values ++ (others.drop start).take (start + count - start)) :=
    appendSpan_ofList values others h
  rw [Nat.add_sub_cancel_left] at hspan
  rw [appendRange, Selection.checkRange, length_ofList, if_pos h]
  exact congrArg Except.ok hspan

theorem pushField_ofList (values : List Bytes) (value : Bytes) :
    (ofList values).pushField (.string value) = .ok (ofList (values ++ [value])) :=
  congrArg Except.ok (extend_ofList values [value])

theorem pushField_of_kind {f : Field} (h : f.kind ≠ .string) (c : StringColumn) :
    c.pushField f = .error (.field (.badGet f.kind .string)) := by
  simp [pushField, Field.get, Field.payload?, h]

/-! ## Selecting and cutting -/

theorem truncate_ofList (values : List Bytes) {size : Nat} (h : size ≤ values.length) :
    (ofList values).truncate size = ofList (values.take size) := by
  have hfront := endsFrom_take_length h
  have hsplit : values = values.take size ++ values.drop size := (List.take_append_drop ..).symm
  rw [truncate, startOf_ofList h, ofList_eq, ofList_eq]
  congr 1
  · rw [hsplit, List.map_append, endsFrom_append, ← hsplit, List.take_left' hfront]
  · rw [hsplit, stored_append, ← hsplit, List.take_left]

theorem popBack_ofList (values : List Bytes) {count : Nat} (h : count ≤ values.length) :
    (ofList values).popBack count = .ok (ofList (values.take (values.length - count))) := by
  rw [popBack, Selection.checkPop, length_ofList, if_pos h]
  exact congrArg Except.ok (truncate_ofList values (Nat.sub_le _ _))

/-- The runs of a mask, copied one after the other, are the rows that the mask keeps.
Of a run that is open at `row`, the rows from `start` on are still to be copied. -/
theorem foldl_runs (values : List Bytes) (mask : List Bool) (row : Nat) (kept : List Bytes)
    (hlength : row + mask.length = values.length) :
    (runs row none mask).foldl (fun kept run => kept.appendSpan (ofList values) run.1 run.2)
        (ofList kept) =
      ofList (kept ++ Selection.keepRows mask (values.drop row)) ∧
    ∀ start ≤ row,
      (runs row (some start) mask).foldl
          (fun kept run => kept.appendSpan (ofList values) run.1 run.2) (ofList kept) =
        ofList (kept ++ (values.drop start).take (row - start) ++
          Selection.keepRows mask (values.drop row)) := by
  -- both claims together: a kept row opens a run or lengthens the open one
  induction mask generalizing row kept with
  | nil =>
    refine ⟨by simp [runs, Selection.keepRows], fun start _ => ?_⟩
    rw [runs, List.foldl_cons, List.foldl_nil, appendSpan_ofList _ _ (by simp at hlength; omega)]
    simp [Selection.keepRows]
  | cons keep mask ih =>
    rw [List.length_cons] at hlength
    have hrow : row < values.length := by omega
    have hdrop : values.drop row = values[row] :: values.drop (row + 1) :=
      List.drop_eq_getElem_cons hrow
    have hgrow (start : Nat) (hstart : start ≤ row) :
        (values.drop start).take (row + 1 - start) =
          (values.drop start).take (row - start) ++ [values[row]] := by
      have hnext : row + 1 - start = (row - start) + 1 := by omega
      have hindex : start + (row - start) = row := by omega
      rw [hnext, List.take_add_one, List.getElem?_drop, hindex, List.getElem?_eq_getElem hrow]
      rfl
    cases keep with
    | true =>
      have hopen (start : Nat) (hstart : start ≤ row) :
          (runs (row + 1) (some start) mask).foldl
              (fun kept run => kept.appendSpan (ofList values) run.1 run.2) (ofList kept) =
            ofList (kept ++ (values.drop start).take (row - start) ++
              Selection.keepRows (true :: mask) (values.drop row)) := by
        rw [(ih (row + 1) kept (by omega)).2 start (by omega), hgrow start hstart, hdrop,
          Selection.keepRows]
        simp
      refine ⟨?_, fun start hstart => hopen start hstart⟩
      have hfresh := hopen row (Nat.le_refl row)
      rw [Nat.sub_self, List.take_zero, List.append_nil] at hfresh
      exact hfresh
    | false =>
      have hskip : Selection.keepRows (false :: mask) (values.drop row) =
          Selection.keepRows mask (values.drop (row + 1)) := by
        rw [hdrop, Selection.keepRows]
      rw [hskip]
      refine ⟨(ih (row + 1) kept (by omega)).1, fun start _ => ?_⟩
      rw [runs, List.foldl_cons, appendSpan_ofList _ _ (by omega)]
      exact (ih (row + 1) _ (by omega)).1

theorem filter_ofList (values : List Bytes) {mask : List Bool}
    (h : mask.length = values.length) (hint : Nat) :
    (ofList values).filter mask hint = .ok (ofList (Selection.keepRows mask values)) := by
  have hruns := (foldl_runs values mask 0 [] (by omega)).1
  rw [List.drop_zero, List.nil_append] at hruns
  rw [filter, Selection.checkFilter, length_ofList, if_pos h]
  exact congrArg Except.ok hruns

theorem gatherRows_raw? (values : List Bytes) (indices : List Nat) :
    indices.filterMap (ofList values).raw? =
      (Selection.gatherRows indices values).map terminated := by
  rw [funext (raw?_ofList values), Selection.gatherRows, List.map_filterMap]

theorem permute_ofList (values : List Bytes) {perm : List Nat} {limit required : Nat}
    (h : Selection.checkPermutation perm limit values.length = .ok required) :
    (ofList values).permute perm limit =
      .ok (ofList (Selection.gatherRows (perm.take required) values)) := by
  rw [permute, length_ofList, h]
  exact congrArg Except.ok
    ((congrArg empty.appendRaw (gatherRows_raw? values _)).trans (appendRaw_ofList [] _))

theorem repeatRows_map {α β : Type} (f : α → β) (counts : List Nat) (rows : List α) :
    Selection.repeatRows counts (rows.map f) = (Selection.repeatRows counts rows).map f := by
  induction counts generalizing rows with
  | nil => simp [Selection.repeatRows]
  | cons count counts ih =>
    cases rows with
    | nil => simp [Selection.repeatRows]
    | cons row rows => simp [Selection.repeatRows, ih]

theorem replicate_ofList (values : List Bytes) {counts : List Nat}
    (h : counts.length = values.length) :
    (ofList values).replicate counts = .ok (ofList (Selection.repeatRows counts values)) := by
  rw [replicate, Selection.checkReplicate, length_ofList, if_pos h, pieces_ofList, repeatRows_map]
  exact congrArg Except.ok (appendRaw_ofList [] _)

/-- A string column selects rows as a list of values does, whatever it copies
together. -/
theorem select_ofList {values : List Bytes} {s : RowSelection} (h : s.Suits values.length) :
    Layout.select (ofList values) s =
      .ok (ofList (Selection.gatherRows (s.indices values.length) values)) := by
  rw [← RowSelection.rows_eq_gatherRows h]
  cases s with
  | filter mask hint => exact filter_ofList values h hint
  | permute perm limit => exact permute_ofList values (RowSelection.checkPermutation_eq_ok h)
  | replicate counts => exact replicate_ofList values h

theorem select_of_error {c : StringColumn} {s : RowSelection} {e : ColumnError}
    (h : s.check c.length = .error e) : Layout.select c s = .error e := by
  cases s with
  | filter mask hint =>
    show c.filter mask hint = _
    rw [filter, show Selection.checkFilter mask _ = _ from h]
    rfl
  | permute perm limit =>
    show c.permute perm limit = _
    rw [permute, RowSelection.permute_check_error h]
    rfl
  | replicate counts =>
    show c.replicate counts = _
    rw [replicate, show Selection.checkReplicate counts _ = _ from h]
    rfl

end ResultSet.StringColumn
