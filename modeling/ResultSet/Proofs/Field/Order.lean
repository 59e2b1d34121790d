import ResultSet.Proofs.Field.Equality

/-!
# The order of fields

Fields are ordered by their kinds first and by their values within a kind; two aggregate
states have no order.  So the order of two nested fields may be an error, and a difference
in front of the states hides it.

* `compare_mirrored` exchanges the sides.
* `compare_chains` is transitivity.  The error cannot come up between two neighbours that
  can be compared: fields in order have their kinds in order, so where the outer fields meet
  in two states, the field between them is a state as well and its comparison failed already.

Lists are compared element by element: `lexAnswer` is one step of this, and each law holds of
a step before it holds of lists.
-/

namespace ResultSet

namespace Field

/-- The answer about two lists, given the one about their first elements and the one about
the rest. -/
def lexAnswer (first rest : Except FieldError Ordering) : Except FieldError Ordering :=
  match first with
  | .ok .eq => rest
  | answer => answer

theorem compareLists_cons (l r : Field) (ls rs : List Field) :
    compareLists (l :: ls) (r :: rs) = lexAnswer (l.compare r) (compareLists ls rs) := by
  rw [compareLists]
  rfl

/-! ## Exchanging the sides -/

/-- Two answers are the same order seen from both sides, or both are the error that
aggregate states have none. -/
inductive Mirrored : Except FieldError Ordering → Except FieldError Ordering → Prop
  | order (o : Ordering) : Mirrored (.ok o) (.ok o.swap)
  | incomparable (left right : Text) :
      Mirrored (.error (.incomparableState left)) (.error (.incomparableState right))

theorem Mirrored.lex {x x' y y' : Except FieldError Ordering} (hfirst : Mirrored x y)
    (hrest : Mirrored x' y') : Mirrored (lexAnswer x x') (lexAnswer y y') := by
  cases hfirst with
  | order o =>
    cases o with
    | lt => exact .order .lt
    | eq => exact hrest
    | gt => exact .order .gt
  | incomparable left right => exact .incomparable left right

theorem compareLists_mirrored {ls : List Field}
    (h : ∀ l ∈ ls, ∀ r, Mirrored (l.compare r) (r.compare l)) (rs : List Field) :
    Mirrored (compareLists ls rs) (compareLists rs ls) := by
  induction ls generalizing rs with
  | nil =>
    cases rs with
    | nil => exact .order .eq
    | cons r rs => exact .order .lt
  | cons l ls ih =>
    cases rs with
    | nil => exact .order .gt
    | cons r rs =>
      rw [compareLists_cons, compareLists_cons]
      exact (h l List.mem_cons_self r).lex (ih (fun l hl => h l (List.mem_cons_of_mem _ hl)) rs)

/-- Seen from the other side the order of two fields is reversed, or fails as well. -/
theorem compare_mirrored (l r : Field) : Mirrored (l.compare r) (r.compare l) := by
  induction l using inductionOn generalizing r with
  | step l ih =>
    cases pair l r with
    | apart h =>
      rw [compare_of_kind_ne h, compare_of_kind_ne h.symm, ← Nat.compare_swap l.kind.tag]
      exact .order _
    | @plain kind h l r =>
      rw [compare_plain h, compare_plain h, kind.order_swap l r]
      exact .order _
    | arrays ls rs => exact compareLists_mirrored ih rs
    | tuples ls rs => exact compareLists_mirrored ih rs
    | states l r => exact .incomparable l.function r.function

/-! ## Transitivity -/

/-- The answers `x` and `y` about two neighbours, neither of them in the wrong order,
settle the answer `z` about the outer fields. -/
def Chains (x y z : Except FieldError Ordering) : Prop :=
  ∀ o₁ o₂, x = .ok o₁ → y = .ok o₂ → o₁ ≠ .gt → o₂ ≠ .gt → z = .ok (o₁.then o₂)

theorem then_lt {o : Ordering} (h : o ≠ .gt) : o.then .lt = .lt := by
  cases o with
  | lt => rfl
  | eq => rfl
  | gt => exact absurd rfl h

theorem Chains.of_transCmp {α : Type} {cmp : α → α → Ordering} [Std.TransCmp cmp] (a b c : α) :
    Chains (.ok (cmp a b)) (.ok (cmp b c)) (.ok (cmp a c)) := by
  intro o₁ o₂ hab hbc ho₁ ho₂
  have hab : cmp a b = o₁ := Except.ok.inj hab
  have hbc : cmp b c = o₂ := Except.ok.inj hbc
  refine congrArg Except.ok ?_
  cases o₁ with
  | gt => exact absurd rfl ho₁
  | eq => rw [Std.TransCmp.congr_left hab, hbc]; rfl
  | lt =>
    cases o₂ with
    | gt => exact absurd rfl ho₂
    | eq => exact Std.TransCmp.lt_of_lt_of_eq hab hbc
    | lt => exact Std.TransCmp.lt_trans hab hbc

theorem Chains.lex {x x' y y' z z' : Except FieldError Ordering} (hfirst : Chains x y z)
    (hrest : Chains x' y' z') : Chains (lexAnswer x x') (lexAnswer y y') (lexAnswer z z') := by
  intro o₁ o₂ hleft hright ho₁ ho₂
  cases x with
  | error e => cases hleft
  | ok p =>
    cases y with
    | error e => cases hright
    | ok q =>
      have hp : p ≠ .gt := by
        rintro rfl
        cases hleft
        exact ho₁ rfl
      have hq : q ≠ .gt := by
        rintro rfl
        cases hright
        exact ho₂ rfl
      rw [hfirst p q rfl rfl hp hq]
      cases p with
      | gt => exact absurd rfl hp
      | lt =>
        cases hleft
        rfl
      | eq =>
        cases q with
        | gt => exact absurd rfl hq
        | lt =>
          cases hright
          exact congrArg Except.ok (then_lt ho₁).symm
        | eq => exact hrest o₁ o₂ hleft hright ho₁ ho₂

theorem compareLists_chains {ls : List Field}
    (h : ∀ l ∈ ls, ∀ m n, Chains (l.compare m) (m.compare n) (l.compare n)) (ms ns : List Field) :
    Chains (compareLists ls ms) (compareLists ms ns) (compareLists ls ns) := by
  induction ls generalizing ms ns with
  | nil =>
    intro o₁ o₂ hleft hright ho₁ ho₂
    cases ms with
    | nil =>
      cases hleft
      exact hright
    | cons m ms =>
      cases hleft
      cases ns with
      | nil =>
        cases hright
        exact absurd rfl ho₂
      | cons n ns => rfl
  | cons l ls ih =>
    cases ms with
    | nil =>
      intro o₁ o₂ hleft hright ho₁ ho₂
      cases hleft
      exact absurd rfl ho₁
    | cons m ms =>
      cases ns with
      | nil =>
        intro o₁ o₂ hleft hright ho₁ ho₂
        cases hright
        exact absurd rfl ho₂
      | cons n ns =>
        rw [compareLists_cons, compareLists_cons, compareLists_cons]
        exact (h l List.mem_cons_self m n).lex
          (ih (fun l hl => h l (List.mem_cons_of_mem _ hl)) ms ns)

/-! ### Kinds -/

theorem compare_of_tag_lt {l r : Field} (h : l.kind.tag < r.kind.tag) :
    l.compare r = .ok .lt := by
  have hkind : l.kind ≠ r.kind := fun heq => absurd (congrArg FieldKind.tag heq) (Nat.ne_of_lt h)
  rw [compare_of_kind_ne hkind, Nat.compare_eq_lt.2 h]

/-- A field of another kind that does not come first comes behind. -/
theorem tag_lt_of_compare {l r : Field} {o : Ordering} (h : l.compare r = .ok o) (ho : o ≠ .gt)
    (hkind : l.kind ≠ r.kind) : l.kind.tag < r.kind.tag := by
  rw [compare_of_kind_ne hkind] at h
  cases h
  have hle : l.kind.tag ≤ r.kind.tag := Nat.compare_ne_gt.1 ho
  exact Nat.lt_of_le_of_ne hle fun htag => hkind (FieldKind.tag_inj htag)

theorem compare_chains_of_kind_ne {a b c : Field} (h : ¬(b.kind = a.kind ∧ c.kind = a.kind)) :
    Chains (a.compare b) (b.compare c) (a.compare c) := by
  intro o₁ o₂ hab hbc ho₁ ho₂
  by_cases hleft : a.kind = b.kind
  · have hright : b.kind ≠ c.kind := fun heq => h ⟨hleft.symm, (hleft.trans heq).symm⟩
    have hlt := tag_lt_of_compare hbc ho₂ hright
    rw [compare_of_tag_lt hlt] at hbc
    cases hbc
    rw [compare_of_tag_lt (hleft ▸ hlt), then_lt ho₁]
  · have hlt := tag_lt_of_compare hab ho₁ hleft
    rw [compare_of_tag_lt hlt] at hab
    cases hab
    refine compare_of_tag_lt ?_
    by_cases hright : b.kind = c.kind
    · exact hright ▸ hlt
    · exact Nat.lt_trans hlt (tag_lt_of_compare hbc ho₂ hright)

/-- Two neighbours in order settle the order of the outer fields. -/
theorem compare_chains (a b c : Field) : Chains (a.compare b) (b.compare c) (a.compare c) := by
  induction a using inductionOn generalizing b c with
  | step a ih =>
    by_cases hkind : b.kind = a.kind ∧ c.kind = a.kind
    · cases pair a b with
      | apart h => exact absurd hkind.1.symm h
      | @plain kind h x y =>
        obtain ⟨z, rfl⟩ := exists_payload (hkind.2.trans (kind_ofPayload kind x))
        rw [compare_plain h, compare_plain h, compare_plain h]
        exact .of_transCmp x y z
      | arrays ls ms =>
        obtain ⟨ns, rfl⟩ := exists_payload hkind.2
        exact compareLists_chains ih ms ns
      | tuples ls ms =>
        obtain ⟨ns, rfl⟩ := exists_payload hkind.2
        exact compareLists_chains ih ms ns
      | states s t =>
        intro o₁ o₂ hst
        cases hst
    · exact compare_chains_of_kind_ne hkind

end Field

end ResultSet
