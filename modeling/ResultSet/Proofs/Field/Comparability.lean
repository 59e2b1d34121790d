import ResultSet.Proofs.Field.Order

/-!
# Where fields can be compared

Order and equality walk through two nested fields in different ways: equality looks at the
lengths of lists first and compares states of one function, the order goes through the
common elements first and refuses all states.

* `Agree` lists what the two can answer about the same fields, and `compare_agrees` proves
  it in one induction.  What one of them says about the other is read off it.
* `MeetsStates` says that the walk through two fields comes to two states, and that
  everything in front of them is equal; `compare_eq_error_iff` says that the order fails
  there and nowhere else.

`compare_preorder` and `sameValue_matches_compare` gather what is known of order and equality
for fields of any depth.
-/

namespace ResultSet

namespace Field

/-! ## Aggregate states inside a field -/

mutual

/-- There is an aggregate state in the field, at any depth. -/
def hasState : Field → Bool
  | .aggregateState _ => true
  | .array fields => anyState fields
  | .tuple fields => anyState fields
  | _ => false

/-- There is an aggregate state in one of the fields. -/
def anyState : List Field → Bool
  | [] => false
  | f :: fields => f.hasState || anyState fields

end

theorem hasState_plain {kind : FieldKind} (h : kind.isPlain = true) (v : kind.Payload) :
    (ofPayload kind v).hasState = false := by
  cases kind <;> first | rfl | cases h

/-! ## Order and equality side by side -/

/-- What order and equality answer about the same two fields: fields that equality tells
apart may come in any order, and equality may say anything of fields without order. -/
inductive Agree : (hasState : Bool) → Except FieldError Ordering → Except FieldError Bool → Prop
  | equal : Agree false (.ok .eq) (.ok true)
  | different {hasState : Bool} {o : Ordering} (h : o ≠ .eq) : Agree hasState (.ok o) (.ok false)
  | incomparable (function : Text) (answer : Except FieldError Bool) :
      Agree true (.error (.incomparableState function)) answer

theorem compareLists_agrees {ls : List Field}
    (h : ∀ l ∈ ls, ∀ r, Agree l.hasState (l.compare r) (l.sameValue r)) (rs : List Field) :
    Agree (anyState ls) (compareLists ls rs) (sameLists ls rs) := by
  induction ls generalizing rs with
  | nil =>
    cases rs with
    | nil => exact .equal
    | cons r rs => exact .different (by decide)
  | cons l ls ih =>
    cases rs with
    | nil => exact .different (by decide)
    | cons r rs =>
      have hrest := ih (fun l hl => h l (List.mem_cons_of_mem _ hl)) rs
      have hfirst := h l List.mem_cons_self r
      rw [compareLists_cons, anyState]
      generalize hstate : l.hasState = state, horder : l.compare r = order,
        hsame : l.sameValue r = answer at hfirst
      cases hfirst with
      | equal =>
        rw [sameLists_cons_of_same hsame, Bool.false_or]
        exact hrest
      | @different _ o ho =>
        rw [sameLists_cons_of_different hsame]
        cases o with
        | lt => exact .different ho
        | eq => exact absurd rfl ho
        | gt => exact .different ho
      | incomparable function _ =>
        rw [Bool.true_or]
        exact .incomparable function _

/-- Order and equality agree on all fields. -/
theorem compare_agrees (l r : Field) : Agree l.hasState (l.compare r) (l.sameValue r) := by
  induction l using inductionOn generalizing r with
  | step l ih =>
    cases pair l r with
    | apart h =>
      rw [compare_of_kind_ne h, sameValue_of_kind_ne h]
      exact .different fun heq => h (FieldKind.tag_inj (Nat.compare_eq_eq.1 heq))
    | @plain kind h l r =>
      rw [compare_plain h, sameValue_plain h, hasState_plain h]
      cases horder : kind.order l r with
      | lt => exact .different (by decide)
      | eq => exact .equal
      | gt => exact .different (by decide)
    | arrays ls rs => exact compareLists_agrees ih rs
    | tuples ls rs => exact compareLists_agrees ih rs
    | states l r => exact .incomparable l.function _

theorem compare_eq_eq_iff {l r : Field} :
    l.compare r = .ok .eq ↔ l.sameValue r = .ok true ∧ l.hasState = false := by
  have h := compare_agrees l r
  generalize l.hasState = state, l.compare r = order, l.sameValue r = answer at h
  cases h with
  | equal => exact ⟨fun _ => ⟨rfl, rfl⟩, fun _ => rfl⟩
  | different ho => exact ⟨fun heq => absurd (Except.ok.inj heq) ho, fun h => (by cases h.1)⟩
  | incomparable function _ => exact ⟨fun heq => (by cases heq), fun h => (by cases h.2)⟩

/-! ## Where the order fails -/

/-- Two lists, walked through side by side, come to elements that are related by `p`, and
everything in front of these is equal and free of states. -/
inductive WalksTo (p : Field → Field → Prop) : List Field → List Field → Prop
  | here {l r : Field} {ls rs : List Field} (h : p l r) : WalksTo p (l :: ls) (r :: rs)
  | later {l r : Field} {ls rs : List Field} (hsame : l.sameValue r = .ok true)
      (hfree : l.hasState = false) (h : WalksTo p ls rs) : WalksTo p (l :: ls) (r :: rs)

/-- Two fields, walked through side by side, come to two aggregate states before they come
to a difference; the one on the left is of the function. -/
inductive MeetsStates (function : Text) : Field → Field → Prop
  | states {l r : AggregateState} (h : l.function = function) :
      MeetsStates function (.aggregateState l) (.aggregateState r)
  | arrays {ls rs : List Field} (h : WalksTo (MeetsStates function) ls rs) :
      MeetsStates function (.array ls) (.array rs)
  | tuples {ls rs : List Field} (h : WalksTo (MeetsStates function) ls rs) :
      MeetsStates function (.tuple ls) (.tuple rs)

theorem WalksTo.imp {p q : Field → Field → Prop} {ls rs : List Field} (h : WalksTo p ls rs)
    (himp : ∀ l ∈ ls, ∀ r, p l r → q l r) : WalksTo q ls rs := by
  induction h with
  | here h => exact .here (himp _ List.mem_cons_self _ h)
  | later hsame hfree _ ih =>
    exact .later hsame hfree (ih fun l hl => himp l (List.mem_cons_of_mem _ hl))

theorem compareLists_eq_error_iff {e : FieldError} {ls rs : List Field} :
    compareLists ls rs = .error e ↔ WalksTo (fun l r => l.compare r = .error e) ls rs := by
  constructor
  · intro h
    induction ls generalizing rs with
    | nil => cases rs <;> cases h
    | cons l ls ih =>
      cases rs with
      | nil => cases h
      | cons r rs =>
        rw [compareLists_cons] at h
        cases hfirst : l.compare r with
        | error e' =>
          rw [hfirst] at h
          exact .here (hfirst.trans h)
        | ok o =>
          rw [hfirst] at h
          cases o with
          | lt => cases h
          | gt => cases h
          | eq =>
            obtain ⟨hsame, hfree⟩ := compare_eq_eq_iff.1 hfirst
            exact .later hsame hfree (ih h)
  · intro h
    induction h with
    | here h =>
      rw [compareLists_cons, h]
      rfl
    | later hsame hfree _ ih =>
      rw [compareLists_cons, compare_eq_eq_iff.2 ⟨hsame, hfree⟩]
      exact ih

theorem MeetsStates.kind_eq {function : Text} {l r : Field} (h : MeetsStates function l r) :
    l.kind = r.kind ∧ l.kind.isPlain = false := by
  cases h <;> exact ⟨rfl, rfl⟩

theorem compare_eq_incomparable_iff {function : Text} {l r : Field} :
    l.compare r = .error (.incomparableState function) ↔ MeetsStates function l r := by
  induction l using inductionOn generalizing r with
  | step l ih =>
    have hlists {ls rs : List Field} (ih : ∀ l ∈ ls, ∀ {r : Field},
          l.compare r = .error (.incomparableState function) ↔ MeetsStates function l r) :
        compareLists ls rs = .error (.incomparableState function) ↔
          WalksTo (MeetsStates function) ls rs :=
      compareLists_eq_error_iff.trans
        ⟨fun h => h.imp fun l hl r => (ih l hl).1, fun h => h.imp fun l hl r => (ih l hl).2⟩
    cases pair l r with
    | apart h =>
      rw [compare_of_kind_ne h]
      exact ⟨fun herror => (by cases herror), fun hmeets => absurd hmeets.kind_eq.1 h⟩
    | @plain kind h l r =>
      rw [compare_plain h]
      refine ⟨fun herror => (by cases herror), fun hmeets => ?_⟩
      have hplain := hmeets.kind_eq.2
      rw [kind_ofPayload, h] at hplain
      cases hplain
    | arrays ls rs =>
      refine (hlists ih).trans ⟨.arrays, fun h => ?_⟩
      cases h with
      | arrays h => exact h
    | tuples ls rs =>
      refine (hlists ih).trans ⟨.tuples, fun h => ?_⟩
      cases h with
      | tuples h => exact h
    | states l r =>
      refine ⟨fun h => ?_, fun h => ?_⟩
      · cases h
        exact .states rfl
      · cases h with
        | states h =>
          rw [← h]
          rfl

/-- The order of two fields fails exactly where the walk through them comes to two
states. -/
theorem compare_eq_error_iff {l r : Field} {e : FieldError} :
    l.compare r = .error e ↔
      ∃ function, e = .incomparableState function ∧ MeetsStates function l r := by
  constructor
  · intro h
    have hagree := compare_agrees l r
    rw [h] at hagree
    generalize l.hasState = state at hagree
    cases hagree with
    | incomparable function _ => exact ⟨function, rfl, compare_eq_incomparable_iff.1 h⟩
  · rintro ⟨function, rfl, h⟩
    exact compare_eq_incomparable_iff.2 h

/-- Fields without states always have an order. -/
theorem exists_compare_of_stateFree {l : Field} (h : l.hasState = false) (r : Field) :
    ∃ o, l.compare r = .ok o := by
  have hagree := compare_agrees l r
  rw [h] at hagree
  generalize l.compare r = order, l.sameValue r = answer at hagree
  cases hagree with
  | equal => exact ⟨.eq, rfl⟩
  | different ho => exact ⟨_, rfl⟩

/-! ## What order and equality say about each other -/

/-- Equal fields are level, or have states inside. -/
theorem compare_of_sameValue {l r : Field} (h : l.sameValue r = .ok true) :
    l.compare r = .ok .eq ∨ ∃ function, l.compare r = .error (.incomparableState function) := by
  have hagree := compare_agrees l r
  rw [h] at hagree
  generalize l.hasState = state, l.compare r = order at hagree
  cases hagree with
  | equal => exact Or.inl rfl
  | incomparable function _ => exact Or.inr ⟨function, rfl⟩

/-- Fields in strict order are unequal. -/
theorem sameValue_of_compare_ne {l r : Field} {o : Ordering} (h : l.compare r = .ok o)
    (ho : o ≠ .eq) : l.sameValue r = .ok false := by
  have hagree := compare_agrees l r
  rw [h] at hagree
  generalize l.hasState = state, l.sameValue r = answer at hagree
  cases hagree with
  | equal => exact absurd rfl ho
  | different _ => rfl

theorem equal_iff {l r : Field} : l.equal r = true ↔ l.sameValue r = .ok true := by
  unfold equal
  cases l.sameValue r with
  | ok answer => exact ⟨congrArg Except.ok, Except.ok.inj⟩
  | error e => exact ⟨fun h => (by cases h), fun h => (by cases h)⟩

theorem order?_eq_some_iff {l r : Field} {o : Ordering} :
    l.order? r = some o ↔ l.compare r = .ok o := by
  unfold order?
  cases l.compare r with
  | ok answer => exact ⟨fun h => congrArg Except.ok (Option.some.inj h),
      fun h => congrArg some (Except.ok.inj h)⟩
  | error e => exact ⟨fun h => (by cases h), fun h => (by cases h)⟩

theorem equal_equivalence : Equivalence fun l r : Field => l.equal r = true where
  refl f := equal_iff.2 (sameValue_self f)
  symm {l r} h := by
    rw [equal_iff, sameValue_comm, equal_iff.1 h]
    rfl
  trans hab hbc := equal_iff.2 (sameValue_trans (equal_iff.1 hab) (equal_iff.1 hbc))

/-! ## The laws -/

/-- The order of fields is a total preorder where it is defined.  Seen from the other side
it is reversed, or fails as well; two neighbours in order put the outer fields in order,
strictly if one of the two steps is strict, and never lead to an error; it fails exactly
where the walk through both fields comes to two aggregate states before it comes to a
difference, so never on a field without states, and such a field is level with itself. -/
theorem compare_preorder (a b c : Field) :
    ((∃ o, a.compare b = .ok o ∧ b.compare a = .ok o.swap) ∨
        ∃ f g, a.compare b = .error (.incomparableState f) ∧
          b.compare a = .error (.incomparableState g)) ∧
      (∀ o₁ o₂, a.compare b = .ok o₁ → b.compare c = .ok o₂ → o₁ ≠ .gt → o₂ ≠ .gt →
        ∃ o, a.compare c = .ok o ∧ o ≠ .gt ∧ (o = .lt ↔ o₁ = .lt ∨ o₂ = .lt)) ∧
      (∀ e, a.compare b = .error e ↔
        ∃ function, e = .incomparableState function ∧ MeetsStates function a b) ∧
      (a.hasState = false → (∃ o, a.compare b = .ok o) ∧ a.compare a = .ok .eq) := by
  refine ⟨?_, fun o₁ o₂ hab hbc ho₁ ho₂ => ?_, fun e => compare_eq_error_iff, fun hfree => ?_⟩
  · have hmirrored := compare_mirrored a b
    generalize a.compare b = left, b.compare a = right at hmirrored
    cases hmirrored with
    | order o => exact Or.inl ⟨o, rfl, rfl⟩
    | incomparable f g => exact Or.inr ⟨f, g, rfl, rfl⟩
  · refine ⟨o₁.then o₂, compare_chains a b c o₁ o₂ hab hbc ho₁ ho₂, ?_⟩
    cases o₁ <;> cases o₂ <;> simp_all
  · exact ⟨exists_compare_of_stateFree hfree b, compare_eq_eq_iff.2 ⟨sameValue_self a, hfree⟩⟩

/-- Arrays that hold states are in order where a difference stands in front of these; an
array compared with itself is not. -/
theorem compare_preorder_hidden_state :
    let state : Field := .aggregateState ⟨['s'], []⟩
    let a : Field := .array [.null, state]
    let b : Field := .array [.array [], state]
    let c : Field := .tuple [state]
    a.compare b = .ok .lt ∧ b.compare c = .ok .lt ∧ a.compare c = .ok .lt ∧
      b.compare b = .error (.incomparableState ['s']) ∧ MeetsStates ['s'] b b := by
  intro state a b c
  have hab : a.compare b = .ok .lt := rfl
  have hbc : b.compare c = .ok .lt := rfl
  have hbb : b.compare b = .error (.incomparableState ['s']) := rfl
  obtain ⟨o, hac, _, hlt⟩ :=
    (compare_preorder a b c).2.1 .lt .lt hab hbc (by decide) (by decide)
  obtain ⟨function, hfunction, hmeets⟩ := ((compare_preorder b b c).2.2.1 _).1 hbb
  cases hfunction
  rw [hlt.2 (Or.inl rfl)] at hac
  exact ⟨hab, hbc, hac, hbb, hmeets⟩

/-- Equality of fields is an equivalence and agrees with the order.  Exchanging the sides
keeps the answer, or the error with its two functions exchanged.  Fields that are level are
equal, equal fields are level unless the order fails on aggregate states, and fields in
strict order are unequal, without an error.  `equal` and `order?` have false and nothing in
place of errors, so `equal` is an equivalence on all fields. -/
theorem sameValue_matches_compare (a b c : Field) :
    a.sameValue a = .ok true ∧
      ((∃ answer, a.sameValue b = .ok answer ∧ b.sameValue a = .ok answer) ∨
        ∃ e, a.sameValue b = .error e ∧ b.sameValue a = .error e.mirror) ∧
      (a.sameValue b = .ok true → b.sameValue c = .ok true → a.sameValue c = .ok true) ∧
      (a.compare b = .ok .eq → a.sameValue b = .ok true) ∧
      (a.sameValue b = .ok true →
        a.compare b = .ok .eq ∨ ∃ function, a.compare b = .error (.incomparableState function)) ∧
      (∀ o, a.compare b = .ok o → o ≠ .eq → a.sameValue b = .ok false) ∧
      ((∀ answer, a.sameValue b = .ok answer → a.equal b = answer) ∧
        ∀ e, a.sameValue b = .error e → a.equal b = false) ∧
      ((∀ o, a.compare b = .ok o → a.order? b = some o) ∧
        ∀ e, a.compare b = .error e → a.order? b = none) ∧
      Equivalence (fun l r : Field => l.equal r = true) ∧
      (a.order? b = some .eq → a.equal b = true) := by
  refine ⟨sameValue_self a, ?_, sameValue_trans, fun h => (compare_eq_eq_iff.1 h).1,
    compare_of_sameValue, fun o => sameValue_of_compare_ne,
    ⟨fun answer h => by rw [equal, h], fun e h => by rw [equal, h]⟩,
    ⟨fun o => order?_eq_some_iff.2, fun e h => by rw [order?, h]⟩, equal_equivalence,
    fun h => equal_iff.2 (compare_eq_eq_iff.1 (order?_eq_some_iff.1 h)).1⟩
  rw [sameValue_comm a b]
  cases a.sameValue b with
  | ok answer => exact Or.inl ⟨answer, rfl, rfl⟩
  | error e => exact Or.inr ⟨e, rfl, rfl⟩

/-- Tuples that hold 1.5 at three scales and the same state are equal, and have no order. -/
theorem sameValue_matches_compare_rescaled :
    let held (value : Int) (scale : Nat) : Field :=
      .tuple [.decimal .w32 ⟨.wrap 32 value, ⟨scale % 2 ^ 32, Nat.mod_lt _ (Nat.two_pow_pos 32)⟩⟩,
        .aggregateState ⟨['s'], [7]⟩]
    (held 15 1).sameValue (held 150 2) = .ok true ∧
      (held 150 2).sameValue (held 1500 3) = .ok true ∧
      (held 15 1).sameValue (held 1500 3) = .ok true ∧
      ∃ function, (held 15 1).compare (held 1500 3) = .error (.incomparableState function) := by
  intro held
  have hab : (held 15 1).sameValue (held 150 2) = .ok true := rfl
  have hbc : (held 150 2).sameValue (held 1500 3) = .ok true := rfl
  have hac := (sameValue_matches_compare (held 15 1) (held 150 2) (held 1500 3)).2.2.1 hab hbc
  have horder := (sameValue_matches_compare (held 15 1) (held 1500 3) .null).2.2.2.2.1 hac
  refine ⟨hab, hbc, hac, horder.resolve_left fun heq => ?_⟩
  have herror : (held 15 1).compare (held 1500 3) = .error (.incomparableState ['s']) := rfl
  rw [herror] at heq
  cases heq

end Field

end ResultSet
