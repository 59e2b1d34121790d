import ResultSet.Field.Compare
import ResultSet.Proofs.Decimal.Compare

/-!
# Fields taken apart

Order and equality of fields look at two fields in one of three ways: by their kinds,
where these differ, by their payloads, and list by list.  Aggregate states are the fields
that have no order.  The lemmas say this once, so that no later proof goes through pairs
of constructors.

* `inductionOn` is induction over nested fields: what holds of the elements of a field
  carries over to it.
* `Pair` lists the ways, and `pair` says that there is no other.
* `compare_of_kind_ne` and `sameValue_of_kind_ne` are about fields of different kinds.
* `FieldKind.order` is the order of the payloads of one plain kind, and a total preorder.
  `compare_plain` and `sameValue_plain` say that it decides both order and equality.
-/

namespace ResultSet

/-! ## Orders of payloads -/

theorem Floating.orderKey_inj {f : FloatFormat} {x y : Floating f}
    (h : x.orderKey = y.orderKey) : x = y := by
  have hpos : 0 < 2 ^ f.magnitudeBits := Nat.two_pow_pos _
  have hsplit (z : Floating f) :
      z.bits = z.unsignedBits + if z.negative = true then 2 ^ f.magnitudeBits else 0 := by
    have hlt : z.bits < 2 * 2 ^ f.magnitudeBits := by
      have hbits := z.bits_lt
      rw [FloatFormat.width, Nat.pow_succ] at hbits
      omega
    unfold unsignedBits negative
    by_cases hsign : 2 ^ f.magnitudeBits ≤ z.bits
    · rw [if_pos (decide_eq_true hsign), Nat.mod_eq_sub_mod hsign, Nat.mod_eq_of_lt (by omega)]
      omega
    · rw [if_neg (by rw [decide_eq_true_eq]; exact hsign), Nat.mod_eq_of_lt (by omega),
        Nat.add_zero]
  have hbits : x.bits = y.bits := by
    rw [hsplit x, hsplit y]
    unfold orderKey at h
    split at h <;> split at h <;> simp_all <;> omega
  cases x
  cases y
  cases hbits
  rfl

/-- Values are equal where neither comes first, under a key that tells them apart. -/
theorem beq_eq_compareOn {α β : Type} [BEq α] [LawfulBEq α] [Ord β] [Std.LawfulEqOrd β]
    {key : α → β} (hkey : ∀ l r, key l = key r → l = r) (l r : α) : (l == r) = (compareOn key l r == .eq) := by
  rw [Bool.eq_iff_iff, beq_iff_eq, beq_iff_eq]
  show l = r ↔ compare (key l) (key r) = .eq
  rw [Std.LawfulEqOrd.compare_eq_iff_eq]
  exact ⟨congrArg key, hkey l r⟩

namespace FieldKind

/-- Fields of the kind hold a single value that can be ordered. -/
def isPlain : FieldKind → Bool
  | .array | .tuple | .aggregateState => false
  | _ => true

theorem isPlain_or (kind : FieldKind) :
    kind.isPlain = true ∨ kind = .array ∨ kind = .tuple ∨ kind = .aggregateState := by
  cases kind <;> simp [isPlain]

/-- The order of two payloads of a plain kind; the other kinds have none. -/
def order : (kind : FieldKind) → kind.Payload → kind.Payload → Ordering
  | .uint64 => compareOn fun v : Unsigned 64 => v.val
  | .int64 => compareOn fun v : Signed 64 => v.val
  | .float64 => compareOn fun v : Binary64 => v.orderKey
  | .uint128 => compareOn fun v : Unsigned 128 => v.val
  | .int128 => compareOn fun v : Signed 128 => v.val
  | .string => compareBytes
  | .decimal width => (FixedDecimal.compare : FixedDecimal width → FixedDecimal width → Ordering)
  | .null | .array | .tuple | .aggregateState => fun _ _ => .eq

instance (kind : FieldKind) : Std.TransCmp kind.order :=
  match kind with
  | .uint64 => inferInstanceAs (Std.TransCmp (compareOn fun v : Unsigned 64 => v.val))
  | .int64 => inferInstanceAs (Std.TransCmp (compareOn fun v : Signed 64 => v.val))
  | .float64 => inferInstanceAs (Std.TransCmp (compareOn fun v : Binary64 => v.orderKey))
  | .uint128 => inferInstanceAs (Std.TransCmp (compareOn fun v : Unsigned 128 => v.val))
  | .int128 => inferInstanceAs (Std.TransCmp (compareOn fun v : Signed 128 => v.val))
  | .string => inferInstanceAs (Std.TransCmp (compare : Bytes → Bytes → Ordering))
  | .decimal width => inferInstanceAs
      (Std.TransCmp (FixedDecimal.compare : FixedDecimal width → FixedDecimal width → Ordering))
  | .null | .array | .tuple | .aggregateState => { eq_swap := rfl, isLE_trans := fun _ _ => rfl }

theorem order_self (kind : FieldKind) (v : kind.Payload) : kind.order v v = .eq :=
  Std.ReflCmp.compare_self

theorem order_swap (kind : FieldKind) (l r : kind.Payload) :
    kind.order r l = (kind.order l r).swap :=
  Std.OrientedCmp.eq_swap

end FieldKind

namespace Field

theorem exists_ofPayload (f : Field) : ∃ kind payload, f = ofPayload kind payload :=
  ⟨f.kind, f.toPayload, (ofPayload_toPayload f).symm⟩

theorem exists_payload {kind : FieldKind} {f : Field} (h : f.kind = kind) :
    ∃ payload, f = ofPayload kind payload := by
  subst h
  exact ⟨f.toPayload, (ofPayload_toPayload f).symm⟩

@[simp] theorem kind_ofPayload (kind : FieldKind) (payload : kind.Payload) :
    (ofPayload kind payload).kind = kind := by
  cases kind <;> rfl

/-! ## Two fields -/

theorem compare_of_kind_ne {l r : Field} (h : l.kind ≠ r.kind) :
    l.compare r = .ok (Ord.compare l.kind.tag r.kind.tag) := by
  unfold compare
  split
  case h_10 w l v r =>
    have hwidth : w ≠ v := fun hwv => h (congrArg FieldKind.decimal hwv)
    rw [if_neg hwidth]
    rfl
  case h_12 => rfl
  all_goals exact absurd rfl h

theorem sameValue_of_kind_ne {l r : Field} (h : l.kind ≠ r.kind) : l.sameValue r = .ok false := by
  unfold sameValue
  split
  case h_10 w l v r =>
    have hwidth : w ≠ v := fun hwv => h (congrArg FieldKind.decimal hwv)
    rw [decide_eq_false hwidth, Bool.false_and]
  case h_12 => rfl
  all_goals exact absurd rfl h

/-- Payloads of one plain kind are compared at once. -/
theorem compare_plain {kind : FieldKind} (h : kind.isPlain = true) (l r : kind.Payload) :
    (ofPayload kind l).compare (ofPayload kind r) = .ok (kind.order l r) := by
  cases kind with
  | decimal width => exact if_pos rfl
  | array => cases h
  | tuple => cases h
  | aggregateState => cases h
  | _ => rfl

/-- Payloads of one plain kind are equal where neither comes first. -/
theorem sameValue_plain {kind : FieldKind} (h : kind.isPlain = true) (l r : kind.Payload) :
    (ofPayload kind l).sameValue (ofPayload kind r) = .ok (kind.order l r == .eq) := by
  cases kind with
  | null => rfl
  | uint64 => exact congrArg Except.ok (beq_eq_compareOn (fun _ _ => Unsigned.ext) l r)
  | int64 => exact congrArg Except.ok (beq_eq_compareOn (fun _ _ => Signed.ext) l r)
  | float64 => exact congrArg Except.ok (beq_eq_compareOn (fun _ _ => Floating.orderKey_inj) l r)
  | uint128 => exact congrArg Except.ok (beq_eq_compareOn (fun _ _ => Unsigned.ext) l r)
  | int128 => exact congrArg Except.ok (beq_eq_compareOn (fun _ _ => Signed.ext) l r)
  | string =>
    have hbytes (l r : Bytes) : (l == r) = (compareOn (fun v : Bytes => v) l r == .eq) :=
      beq_eq_compareOn (fun _ _ heq => heq) l r
    exact congrArg Except.ok (hbytes l r)
  | decimal width =>
    show Except.ok (decide (width = width) && FixedDecimal.sameValue l r) = _
    rw [decide_eq_true rfl, Bool.true_and]
    rfl
  | array => cases h
  | tuple => cases h
  | aggregateState => cases h

/-- How order and equality look at two fields. -/
inductive Pair : Field → Field → Prop
  | apart {l r : Field} (h : l.kind ≠ r.kind) : Pair l r
  | plain {kind : FieldKind} (h : kind.isPlain = true) (l r : kind.Payload) :
      Pair (ofPayload kind l) (ofPayload kind r)
  | arrays (ls rs : List Field) : Pair (.array ls) (.array rs)
  | tuples (ls rs : List Field) : Pair (.tuple ls) (.tuple rs)
  | states (l r : AggregateState) : Pair (.aggregateState l) (.aggregateState r)

theorem pair (l r : Field) : Pair l r := by
  by_cases hkind : r.kind = l.kind
  · obtain ⟨kind, left, rfl⟩ := l.exists_ofPayload
    rw [kind_ofPayload] at hkind
    obtain ⟨right, rfl⟩ := exists_payload hkind
    rcases kind.isPlain_or with hplain | rfl | rfl | rfl
    · exact .plain hplain left right
    · exact .arrays left right
    · exact .tuples left right
    · exact .states left right
  · exact .apart fun h => hkind h.symm

/-! ## Nested fields -/

/-- The elements of a list, none of any other field. -/
def elements : Field → List Field
  | .array fields => fields
  | .tuple fields => fields
  | _ => []

theorem sizeOf_lt_of_mem_elements {f element : Field} (h : element ∈ f.elements) :
    sizeOf element < sizeOf f := by
  cases f with
  | array fields =>
    have helement : sizeOf element < sizeOf fields := List.sizeOf_lt_of_mem h
    rw [array.sizeOf_spec]
    omega
  | tuple fields =>
    have helement : sizeOf element < sizeOf fields := List.sizeOf_lt_of_mem h
    rw [tuple.sizeOf_spec]
    omega
  | _ => exact absurd h List.not_mem_nil

/-- Induction over nested fields. -/
@[elab_as_elim]
theorem inductionOn {motive : Field → Prop} (f : Field)
    (step : ∀ f, (∀ element ∈ f.elements, motive element) → motive f) : motive f :=
  step f fun element hmem =>
    have : sizeOf element < sizeOf f := sizeOf_lt_of_mem_elements hmem
    inductionOn element step
termination_by sizeOf f

end Field

end ResultSet
