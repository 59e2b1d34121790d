import ResultSet.Column.Layout

/-!
# Row selections as lists of positions

A mask, a permutation and counts select rows by position.  `RowSelection.indices` lists
the selected positions in the order of the result, and `RowSelection.Suits` says which
arguments suit a column with a number of rows.

* `check_eq_ok_iff`: the checks accept exactly the arguments that suit.
* `rows_eq_gatherRows`: on arguments that suit, the three ways to walk over the rows
  all gather the rows at the selected positions.
* `gatherRows` is what later modules reason about: `getElem?_gatherRows` reads a
  gathered row, `gatherRows_map` and `gatherRows_zipWith` move it through the layouts.
* `keepRows_map` and `keepRows_replicate` are the same for the rows that a mask marks.
-/

namespace ResultSet

/-- A way to select rows of a column. -/
inductive RowSelection where
  | filter (mask : List Bool) (hint : Nat)
  | permute (perm : List Nat) (limit : Nat)
  | replicate (counts : List Nat)

/-- The rows of a column that a selection asks for. -/
def Layout.select {C : Type} [Layout C] (c : C) : RowSelection → Except ColumnError C
  | .filter mask hint => Layout.filter c mask hint
  | .permute perm limit => Layout.permute c perm limit
  | .replicate counts => Layout.replicate c counts

namespace RowSelection

/-- The arguments suit a column with `size` rows: a mask and counts have an entry for
each row, a permutation is long enough and names rows that exist. -/
def Suits : RowSelection → (size : Nat) → Prop
  | .filter mask _, size => mask.length = size
  | .permute perm limit, size =>
    let required := if limit = 0 then size else min limit size
    required ≤ perm.length ∧ ∀ i ∈ perm.take required, i < size
  | .replicate counts, size => counts.length = size

instance (s : RowSelection) (size : Nat) : Decidable (s.Suits size) := by
  cases s <;> unfold Suits <;> infer_instance

/-- The selected positions: those that a mask marks, the first ones of a permutation,
and each position as often as its count says. -/
def indices : RowSelection → (size : Nat) → List Nat
  | .filter mask _, _ => (mask.zipIdx.filter fun entry => entry.1).map fun entry => entry.2
  | .permute perm limit, size => perm.take (if limit = 0 then size else min limit size)
  | .replicate counts, _ =>
    counts.zipIdx.flatMap fun entry => List.replicate entry.1 entry.2

/-- The check of the arguments against a number of rows. -/
def check : RowSelection → (size : Nat) → Except ColumnError Unit
  | .filter mask _, size => Selection.checkFilter mask size
  | .permute perm limit, size =>
    (Selection.checkPermutation perm limit size).map fun _ => ()
  | .replicate counts, size => Selection.checkReplicate counts size

/-- The walk over the rows. -/
def rows {α : Type} : RowSelection → List α → List α
  | .filter mask _, rows => Selection.keepRows mask rows
  | .permute perm limit, rows =>
    Selection.gatherRows (perm.take (Selection.permutationSize limit rows.length)) rows
  | .replicate counts, rows => Selection.repeatRows counts rows

end RowSelection

/-! ## Gathered rows -/

namespace Selection

variable {α β γ : Type}

@[simp] theorem gatherRows_nil (rows : List α) : gatherRows [] rows = [] := rfl

theorem gatherRows_cons {i : Nat} {indices : List Nat} {rows : List α} (h : i < rows.length) :
    gatherRows (i :: indices) rows = rows[i] :: gatherRows indices rows := by
  simp [gatherRows, List.getElem?_eq_getElem h]

theorem gatherRows_append (front back : List Nat) (rows : List α) :
    gatherRows (front ++ back) rows = gatherRows front rows ++ gatherRows back rows := by
  simp [gatherRows]

theorem gatherRows_map (f : α → β) (indices : List Nat) (rows : List α) :
    gatherRows indices (rows.map f) = (gatherRows indices rows).map f := by
  simp [gatherRows, List.map_filterMap]

theorem gatherRows_replicate {i : Nat} {rows : List α} (h : i < rows.length) (count : Nat) :
    gatherRows (List.replicate count i) rows = List.replicate count rows[i] := by
  induction count with
  | zero => rfl
  | succ count ih => rw [List.replicate_succ, gatherRows_cons h, ih, List.replicate_succ]

section InRange

variable {indices : List Nat} {rows : List α} (h : ∀ i ∈ indices, i < rows.length)
include h

theorem gatherRows_length : (gatherRows indices rows).length = indices.length := by
  induction indices with
  | nil => rfl
  | cons i indices ih =>
    rw [gatherRows_cons (h i List.mem_cons_self), List.length_cons, List.length_cons,
      ih fun j hj => h j (List.mem_cons_of_mem _ hj)]

theorem getElem?_gatherRows (row : Nat) :
    (gatherRows indices rows)[row]? = indices[row]?.bind fun i => rows[i]? := by
  induction indices generalizing row with
  | nil => rfl
  | cons i indices ih =>
    have hi : i < rows.length := h i List.mem_cons_self
    rw [gatherRows_cons hi]
    cases row with
    | zero => simp [List.getElem?_eq_getElem hi]
    | succ row =>
      simpa using ih (fun j hj => h j (List.mem_cons_of_mem _ hj)) row

theorem gatherRows_zipWith (f : α → β → γ) {others : List β}
    (hlength : rows.length = others.length) :
    gatherRows indices (List.zipWith f rows others) =
      List.zipWith f (gatherRows indices rows) (gatherRows indices others) := by
  apply List.ext_getElem?
  intro row
  have hothers : ∀ i ∈ indices, i < others.length := fun i hi => hlength ▸ h i hi
  have hzipped : ∀ i ∈ indices, i < (List.zipWith f rows others).length := by
    intro i hi
    have := h i hi
    simp
    omega
  rw [getElem?_gatherRows hzipped, List.getElem?_zipWith, getElem?_gatherRows h,
    getElem?_gatherRows hothers]
  cases indices[row]? with
  | none => rfl
  | some i => simp [List.getElem?_zipWith]

end InRange

/-! ## Kept rows -/

theorem keepRows_length {mask : List Bool} {rows : List α}
    (h : mask.length = rows.length) : (keepRows mask rows).length = mask.count true := by
  induction mask generalizing rows with
  | nil => rfl
  | cons marked mask ih =>
    cases rows with
    | nil => cases h
    | cons row rows =>
      have hrest := ih (Nat.succ.inj h)
      cases marked <;> simp [keepRows, hrest]

theorem keepRows_map (f : α → β) (mask : List Bool) (rows : List α) :
    keepRows mask (rows.map f) = (keepRows mask rows).map f := by
  induction mask generalizing rows with
  | nil => rfl
  | cons marked mask ih =>
    cases rows with
    | nil => cases marked <;> rfl
    | cons row rows => cases marked <;> simp [keepRows, ih]

theorem keepRows_replicate (mask : List Bool) (row : α) :
    keepRows mask (List.replicate mask.length row) = List.replicate (mask.count true) row := by
  refine List.eq_replicate_iff.2 ⟨keepRows_length List.length_replicate.symm, ?_⟩
  induction mask with
  | nil => exact fun _ h => absurd h List.not_mem_nil
  | cons marked mask ih =>
    rw [List.length_cons, List.replicate_succ]
    cases marked with
    | false => exact ih
    | true => exact List.forall_mem_cons.2 ⟨rfl, ih⟩

/-- The marked rows, as a filter of rows next to their marks. -/
theorem keepRows_eq_filter (mask : List Bool) (rows : List α) :
    keepRows mask rows = ((rows.zip mask).filter Prod.snd).map Prod.fst := by
  induction mask generalizing rows with
  | nil => rw [List.zip_nil_right]; rfl
  | cons marked mask ih =>
    cases rows with
    | nil => cases marked <;> rfl
    | cons row rows => cases marked <;> simp [keepRows, ih]

/-! ## The three walks -/

private theorem keepRows_drop (mask : List Bool) (k : Nat) (rows : List α)
    (h : k + mask.length = rows.length) :
    keepRows mask (rows.drop k) =
      gatherRows (((mask.zipIdx k).filter fun entry => entry.1).map fun entry => entry.2) rows := by
  induction mask generalizing k with
  | nil => simp [keepRows]
  | cons keep mask ih =>
    rw [List.length_cons] at h
    have hk : k < rows.length := by omega
    have hrest := ih (k + 1) (by omega)
    rw [List.drop_eq_getElem_cons hk, List.zipIdx_cons]
    cases keep with
    | true => simp [keepRows, hrest, gatherRows_cons hk]
    | false => simp [keepRows, hrest]

private theorem repeatRows_drop (counts : List Nat) (k : Nat) (rows : List α)
    (h : k + counts.length = rows.length) :
    repeatRows counts (rows.drop k) =
      gatherRows ((counts.zipIdx k).flatMap fun entry => List.replicate entry.1 entry.2)
        rows := by
  induction counts generalizing k with
  | nil => simp [repeatRows]
  | cons count counts ih =>
    rw [List.length_cons] at h
    have hk : k < rows.length := by omega
    have hrest := ih (k + 1) (by omega)
    rw [List.drop_eq_getElem_cons hk, List.zipIdx_cons, List.flatMap_cons, gatherRows_append,
      gatherRows_replicate hk, repeatRows, hrest]

end Selection

namespace RowSelection

open Selection

variable {α : Type}

/-- On arguments that suit, each walk gathers the rows at the selected positions. -/
theorem rows_eq_gatherRows {s : RowSelection} {rows : List α} (h : s.Suits rows.length) :
    s.rows rows = gatherRows (s.indices rows.length) rows := by
  cases s with
  | filter mask hint =>
    have hwalk := keepRows_drop mask 0 rows (by rw [Nat.zero_add]; exact h)
    rw [List.drop_zero] at hwalk
    exact hwalk
  | permute perm limit => rfl
  | replicate counts =>
    have hwalk := repeatRows_drop counts 0 rows (by rw [Nat.zero_add]; exact h)
    rw [List.drop_zero] at hwalk
    exact hwalk

/-- Only rows that exist are selected. -/
theorem lt_of_mem_indices {s : RowSelection} {size : Nat} (h : s.Suits size) {i : Nat}
    (hi : i ∈ s.indices size) : i < size := by
  cases s with
  | filter mask hint =>
    obtain ⟨⟨keep, j⟩, hentry, rfl⟩ := List.mem_map.1 hi
    have hmem := List.mem_zipIdx (List.mem_filter.1 hentry).1
    have hlength : mask.length = size := h
    simp at hmem
    omega
  | permute perm limit => exact h.2 i hi
  | replicate counts =>
    obtain ⟨⟨count, j⟩, hentry, hj⟩ := List.mem_flatMap.1 hi
    have hmem := List.mem_zipIdx hentry
    have hlength : counts.length = size := h
    have heq := (List.mem_replicate.1 hj).2
    simp at hmem heq
    omega

/-! ## Checks -/

theorem checkPermutation_eq_ok {perm : List Nat} {limit size : Nat}
    (h : (permute perm limit).Suits size) :
    checkPermutation perm limit size = .ok (permutationSize limit size) := by
  have hlength : permutationSize limit size ≤ perm.length := h.1
  have hfind : (perm.take (permutationSize limit size)).find? (fun i => decide (size ≤ i)) =
      none := by
    refine List.find?_eq_none.2 fun i hi => ?_
    have := h.2 i hi
    simp
    omega
  rw [checkPermutation, if_neg (Nat.not_lt.2 hlength), hfind]

private theorem checkPermutation_eq_error {perm : List Nat} {limit size : Nat}
    (h : ¬(permute perm limit).Suits size) :
    ∃ e, checkPermutation perm limit size = .error e := by
  rw [checkPermutation]
  by_cases hlength : perm.length < permutationSize limit size
  · exact ⟨_, if_pos hlength⟩
  · rw [if_neg hlength]
    cases hfind : (perm.take (permutationSize limit size)).find? fun i => decide (size ≤ i) with
    | some i => exact ⟨_, rfl⟩
    | none =>
      refine absurd ⟨Nat.not_lt.1 hlength, fun i hi => ?_⟩ h
      have := List.find?_eq_none.1 hfind i hi
      simpa using this

/-- The checks accept exactly the arguments that suit. -/
theorem check_eq_ok {s : RowSelection} {size : Nat} (h : s.Suits size) :
    s.check size = .ok () := by
  cases s with
  | filter mask hint => exact if_pos h
  | permute perm limit => rw [check, checkPermutation_eq_ok h]; rfl
  | replicate counts => exact if_pos h

theorem check_eq_error {s : RowSelection} {size : Nat} (h : ¬s.Suits size) :
    ∃ e, s.check size = .error e := by
  cases s with
  | filter mask hint => exact ⟨_, if_neg h⟩
  | permute perm limit =>
    obtain ⟨e, he⟩ := checkPermutation_eq_error h
    exact ⟨e, by rw [check, he]; rfl⟩
  | replicate counts => exact ⟨_, if_neg h⟩

/-- A column that checks its arguments first reports what the check reports. -/
theorem permute_check_error {perm : List Nat} {limit size : Nat} {e : ColumnError}
    (h : (permute perm limit).check size = .error e) :
    checkPermutation perm limit size = .error e := by
  rw [check] at h
  cases hcheck : checkPermutation perm limit size with
  | ok required => rw [hcheck] at h; cases h
  | error e' => rw [hcheck] at h; cases h; rfl

/-! ## Lists of rows -/

/-- The rows of a list that a selection asks for. -/
def ofRows (s : RowSelection) (rows : List α) : Except ColumnError (List α) :=
  match s with
  | .filter mask hint => Selection.filter mask rows hint
  | .permute perm limit => Selection.permute perm limit rows
  | .replicate counts => Selection.replicate counts rows

theorem ofRows_of_suits {s : RowSelection} {rows : List α} (h : s.Suits rows.length) :
    s.ofRows rows = .ok (gatherRows (s.indices rows.length) rows) := by
  rw [← rows_eq_gatherRows h]
  have hcheck := check_eq_ok h
  cases s with
  | filter mask hint => rw [ofRows, Selection.filter, show checkFilter mask _ = _ from hcheck]; rfl
  | permute perm limit => rw [ofRows, Selection.permute, checkPermutation_eq_ok h]; rfl
  | replicate counts =>
    rw [ofRows, Selection.replicate, show checkReplicate counts _ = _ from hcheck]
    rfl

theorem ofRows_of_error {s : RowSelection} {rows : List α} {e : ColumnError}
    (h : s.check rows.length = .error e) : s.ofRows rows = .error e := by
  cases s with
  | filter mask hint => rw [ofRows, Selection.filter, show checkFilter mask _ = _ from h]; rfl
  | permute perm limit => rw [ofRows, Selection.permute, permute_check_error h]; rfl
  | replicate counts =>
    rw [ofRows, Selection.replicate, show checkReplicate counts _ = _ from h]
    rfl

end RowSelection

end ResultSet
