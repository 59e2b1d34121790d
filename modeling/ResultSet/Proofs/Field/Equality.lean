import ResultSet.Proofs.Field.Plain

/-!
# Equality of fields

Equality of two fields answers yes or no, or fails where two states of different functions
meet.

* `sameValue_self` says that every field equals itself.
* `sameValue_comm` says that the sides can be exchanged: the answer stays, and an error
  names the two functions the other way round.
* `sameValue_trans` chains two equalities.

Arrays and tuples are both compared by `sameLists`.  Each of the three has a companion about
lists, which is an induction over one list and takes what holds of the elements as a
hypothesis.
-/

namespace ResultSet

/-- The error with the two sides exchanged. -/
def FieldError.mirror : FieldError → FieldError
  | .stateMismatch left right => .stateMismatch right left
  | e => e

namespace Field

/-- Equality of two lists: lists of different lengths differ, and are not looked into. -/
def sameLists (ls rs : List Field) : Except FieldError Bool :=
  if ls.length = rs.length then sameValues ls rs else .ok false

/-- Behind equal elements the rest of the lists decides. -/
theorem sameLists_cons_of_same {l r : Field} (h : l.sameValue r = .ok true) (ls rs : List Field) :
    sameLists (l :: ls) (r :: rs) = sameLists ls rs := by
  simp only [sameLists, List.length_cons, Nat.add_right_cancel_iff, sameValues, h]

/-- Elements that differ decide, whatever stands behind them. -/
theorem sameLists_cons_of_different {l r : Field} (h : l.sameValue r = .ok false)
    (ls rs : List Field) : sameLists (l :: ls) (r :: rs) = .ok false := by
  unfold sameLists
  rw [sameValues, h, ite_self]

theorem sameLists_cons {l r : Field} {ls rs : List Field} :
    sameLists (l :: ls) (r :: rs) = .ok true ↔
      l.sameValue r = .ok true ∧ sameLists ls rs = .ok true := by
  constructor
  · intro h
    have hsame : l.sameValue r = .ok true := by
      unfold sameLists at h
      rw [sameValues] at h
      split at h
      · split at h
        · assumption
        · exact h
      · cases h
    exact ⟨hsame, sameLists_cons_of_same hsame ls rs ▸ h⟩
  · rintro ⟨hsame, hrest⟩
    rw [sameLists_cons_of_same hsame, hrest]

/-! ## Reflexivity -/

theorem sameLists_self {fields : List Field} (h : ∀ f ∈ fields, f.sameValue f = .ok true) :
    sameLists fields fields = .ok true := by
  induction fields with
  | nil => rfl
  | cons f fields ih =>
    rw [sameLists_cons_of_same (h f List.mem_cons_self)]
    exact ih fun f hf => h f (List.mem_cons_of_mem _ hf)

/-- Every field equals itself. -/
theorem sameValue_self (f : Field) : f.sameValue f = .ok true := by
  induction f using inductionOn with
  | step f ih =>
    obtain ⟨kind, payload, rfl⟩ := f.exists_ofPayload
    rcases kind.isPlain_or with hplain | rfl | rfl | rfl
    · rw [sameValue_plain hplain, kind.order_self]
      rfl
    · exact sameLists_self ih
    · exact sameLists_self ih
    · exact (if_pos rfl).trans (congrArg Except.ok (beq_self_eq_true _))

/-! ## Symmetry -/

theorem sameValues_comm {ls : List Field}
    (h : ∀ l ∈ ls, ∀ r, r.sameValue l = (l.sameValue r).mapError FieldError.mirror)
    (rs : List Field) : sameValues rs ls = (sameValues ls rs).mapError FieldError.mirror := by
  induction ls generalizing rs with
  | nil => cases rs <;> rfl
  | cons l ls ih =>
    cases rs with
    | nil => rfl
    | cons r rs =>
      have hrest := ih (fun l hl => h l (List.mem_cons_of_mem _ hl)) rs
      rw [sameValues, sameValues, h l List.mem_cons_self r]
      cases l.sameValue r with
      | error e => rfl
      | ok answer =>
        cases answer with
        | false => rfl
        | true => exact hrest

theorem sameLists_comm {ls : List Field}
    (h : ∀ l ∈ ls, ∀ r, r.sameValue l = (l.sameValue r).mapError FieldError.mirror)
    (rs : List Field) : sameLists rs ls = (sameLists ls rs).mapError FieldError.mirror := by
  unfold sameLists
  by_cases hlength : ls.length = rs.length
  · rw [if_pos hlength, if_pos hlength.symm, sameValues_comm h]
  · rw [if_neg hlength, if_neg fun hrl => hlength hrl.symm]
    rfl

/-- The sides of an equality can be exchanged. -/
theorem sameValue_comm (l r : Field) :
    r.sameValue l = (l.sameValue r).mapError FieldError.mirror := by
  induction l using inductionOn generalizing r with
  | step l ih =>
    cases pair l r with
    | apart h =>
      rw [sameValue_of_kind_ne h, sameValue_of_kind_ne h.symm]
      rfl
    | @plain kind h l r =>
      rw [sameValue_plain h, sameValue_plain h, kind.order_swap l r]
      cases kind.order l r <;> rfl
    | arrays ls rs => exact sameLists_comm ih rs
    | tuples ls rs => exact sameLists_comm ih rs
    | states l r =>
      by_cases hfunction : l.function = r.function
      · have hdata : (r.data == l.data) = (l.data == r.data) := Bool.beq_comm
        rw [sameValue, sameValue, if_pos hfunction, if_pos hfunction.symm, hdata]
        rfl
      · rw [sameValue, sameValue, if_neg hfunction, if_neg fun hrl => hfunction hrl.symm]
        rfl

/-! ## Transitivity -/

theorem kind_eq_of_sameValue {l r : Field} (h : l.sameValue r = .ok true) : l.kind = r.kind := by
  by_cases hkind : l.kind = r.kind
  · exact hkind
  · rw [sameValue_of_kind_ne hkind] at h
    cases h

/-- States are equal where function and data are the same. -/
theorem sameValue_states {s t : AggregateState} :
    (aggregateState s).sameValue (aggregateState t) = .ok true ↔ s = t := by
  constructor
  · intro h
    rw [sameValue] at h
    split at h
    · rename_i hfunction
      have hdata : s.data = t.data := beq_iff_eq.1 (Except.ok.inj h)
      cases s
      cases t
      cases hfunction
      cases hdata
      rfl
    · cases h
  · rintro rfl
    exact sameValue_self _

theorem sameLists_trans {ls ms ns : List Field}
    (h : ∀ l ∈ ls, ∀ m n, l.sameValue m = .ok true → m.sameValue n = .ok true →
      l.sameValue n = .ok true)
    (hleft : sameLists ls ms = .ok true) (hright : sameLists ms ns = .ok true) :
    sameLists ls ns = .ok true := by
  induction ls generalizing ms ns with
  | nil =>
    cases ms with
    | nil => exact hright
    | cons m ms => cases hleft
  | cons l ls ih =>
    cases ms with
    | nil => cases hleft
    | cons m ms =>
      cases ns with
      | nil => cases hright
      | cons n ns =>
        rw [sameLists_cons] at hleft hright ⊢
        exact ⟨h l List.mem_cons_self m n hleft.1 hright.1,
          ih (fun l hl => h l (List.mem_cons_of_mem _ hl)) hleft.2 hright.2⟩

/-- Fields that equal the same field equal each other. -/
theorem sameValue_trans {a b c : Field} (hab : a.sameValue b = .ok true)
    (hbc : b.sameValue c = .ok true) : a.sameValue c = .ok true := by
  induction a using inductionOn generalizing b c with
  | step a ih =>
    have hkind := kind_eq_of_sameValue hbc
    cases pair a b with
    | apart h => exact absurd (kind_eq_of_sameValue hab) h
    | @plain kind h x y =>
      obtain ⟨z, rfl⟩ := exists_payload (hkind.symm.trans (kind_ofPayload kind y))
      rw [sameValue_plain h] at hab hbc ⊢
      have hxy : kind.order x y = .eq := beq_iff_eq.1 (Except.ok.inj hab)
      have hyz : kind.order y z = .eq := beq_iff_eq.1 (Except.ok.inj hbc)
      rw [Std.TransCmp.eq_trans hxy hyz]
      rfl
    | arrays ls ms =>
      obtain ⟨ns, rfl⟩ := exists_payload hkind.symm
      exact sameLists_trans (fun l hl m n => ih l hl) hab hbc
    | tuples ls ms =>
      obtain ⟨ns, rfl⟩ := exists_payload hkind.symm
      exact sameLists_trans (fun l hl m n => ih l hl) hab hbc
    | states s t =>
      obtain ⟨u, rfl⟩ := exists_payload hkind.symm
      rw [sameValue_states.1 hab]
      exact hbc

end Field

end ResultSet
