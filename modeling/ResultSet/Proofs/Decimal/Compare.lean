import ResultSet.Decimal.Fixed
import ResultSet.Proofs.Number.Digits

/-!
# The order of fixed decimals

Fixed decimals are compared in words where that works and as exact numbers otherwise.
Either way the order is the one of the numbers `value * 10 ^ (-scale)`, written here
with both sides brought to one denominator: `FixedDecimal.compare_eq`.  So it chains, and
decimals at different scales are put in order like numbers (the `Std.TransCmp` instance).
-/

namespace ResultSet

theorem compare_mul_right {k : Int} (h : 0 < k) (l r : Int) :
    compare (l * k) (r * k) = compare l r := by
  rcases Int.lt_trichotomy l r with hlt | heq | hgt
  · rw [Int.compare_eq_lt.2 hlt, Int.compare_eq_lt.2 ((Int.mul_lt_mul_right h).2 hlt)]
  · rw [heq, Int.compare_eq_eq.2 rfl, Int.compare_eq_eq.2 rfl]
  · rw [Int.compare_eq_gt.2 hgt, Int.compare_eq_gt.2 ((Int.mul_lt_mul_right h).2 hgt)]

namespace Scaled

/-- Deciding by the sign does not change the answer. -/
theorem compareShifted_eq (left : Int) (gap : Nat) (right : Int) :
    compareShifted left gap right = Ord.compare (left * 10 ^ gap) right := by
  rw [compareShifted]
  split
  · rename_i hzero
    rw [hzero, Int.zero_mul]
  · rename_i hnonzero
    split
    · rename_i hlength
      have hright : right.natAbs < 10 ^ gap := Digits.lt_pow_of_length_le hlength
      have hcast : ((10 ^ gap : Nat) : Int) = 10 ^ gap := Int.natCast_pow 10 gap
      have hpow : (0 : Int) < 10 ^ gap := Int.pow_pos (by decide)
      rcases Int.lt_or_gt_of_ne hnonzero with hneg | hpos
      · have hproduct : left * 10 ^ gap ≤ -1 * 10 ^ gap :=
          Int.mul_le_mul_of_nonneg_right (by omega) (by omega)
        rw [Int.compare_eq_lt.2 hneg, Int.compare_eq_lt.2 (by omega)]
      · have hproduct : 1 * 10 ^ gap ≤ left * 10 ^ gap :=
          Int.mul_le_mul_of_nonneg_right (by omega) (by omega)
        rw [Int.compare_eq_gt.2 hpos, Int.compare_eq_gt.2 (by omega)]
    · rfl

end Scaled

namespace FixedDecimal

variable {w v : DecimalWidth}

theorem shiftedWord?_eq_some {word shifted : Int} {gap : Nat}
    (h : shiftedWord? word gap = some shifted) : shifted = word * 10 ^ gap := by
  rw [shiftedWord?] at h
  split at h
  · obtain ⟨fitted, hfitted, hval⟩ := Option.map_eq_some_iff.1 h
    rw [← hval, Signed.val_of_ofInt? hfitted, Int.natCast_pow]
    rfl
  · cases h

/-- The word with the smaller scale is compared at the larger one. -/
theorem compare_of_lt {left : FixedDecimal w} {right : FixedDecimal v}
    (h : left.scale.val < right.scale.val) :
    left.compare right =
      Ord.compare (left.value.val * 10 ^ (right.scale.val - left.scale.val)) right.value.val := by
  rw [compare, compareBy, if_neg (Nat.ne_of_lt h), if_pos h]
  cases hshifted : shiftedWord? left.value.val (right.scale.val - left.scale.val) with
  | some shifted => rw [shiftedWord?_eq_some hshifted]
  | none =>
    have hgap : ((right.scale.val : Int) - left.scale.val).toNat =
        right.scale.val - left.scale.val := by omega
    have hle : (left.scale.val : Int) ≤ right.scale.val := by omega
    show Scaled.compare left.toScaled right.toScaled = _
    rw [Scaled.compare, toScaled, toScaled, if_pos hle, Scaled.compareShifted_eq, hgap]

theorem compare_of_gt {left : FixedDecimal w} {right : FixedDecimal v}
    (h : right.scale.val < left.scale.val) :
    left.compare right =
      Ord.compare left.value.val (right.value.val * 10 ^ (left.scale.val - right.scale.val)) := by
  rw [compare, compareBy, if_neg (Nat.ne_of_gt h), if_neg (Nat.lt_asymm h)]
  cases hshifted : shiftedWord? right.value.val (left.scale.val - right.scale.val) with
  | some shifted => rw [shiftedWord?_eq_some hshifted]
  | none =>
    have hgap : ((left.scale.val : Int) - right.scale.val).toNat =
        left.scale.val - right.scale.val := by omega
    have hgt : ¬(left.scale.val : Int) ≤ right.scale.val := by omega
    show Scaled.compare left.toScaled right.toScaled = _
    rw [Scaled.compare, toScaled, toScaled, if_neg hgt, Scaled.compareShifted_eq, hgap,
      Int.compare_swap]

/-- Fixed decimals are ordered as the numbers they stand for. -/
theorem compare_eq (left : FixedDecimal w) (right : FixedDecimal v) :
    left.compare right =
      Ord.compare (left.value.val * 10 ^ right.scale.val)
        (right.value.val * 10 ^ left.scale.val) := by
  have hpow (k : Nat) : (0 : Int) < 10 ^ k := Int.pow_pos (by decide)
  have hsplit {small large : Nat} (h : small < large) :
      (10 : Int) ^ large = 10 ^ (large - small) * 10 ^ small := by
    rw [← Int.pow_add, Nat.sub_add_cancel (Nat.le_of_lt h)]
  rcases Nat.lt_trichotomy left.scale.val right.scale.val with hlt | heq | hgt
  · rw [compare_of_lt hlt, hsplit hlt, ← Int.mul_assoc, compare_mul_right (hpow _)]
  · rw [compare, compareBy, if_pos heq, heq, compare_mul_right (hpow _)]
  · rw [compare_of_gt hgt, hsplit hgt, ← Int.mul_assoc, compare_mul_right (hpow _)]

theorem compare_isLE_iff {left : FixedDecimal w} {right : FixedDecimal v} :
    (left.compare right).isLE = true ↔
      left.value.val * 10 ^ right.scale.val ≤ right.value.val * 10 ^ left.scale.val := by
  rw [compare_eq, Int.isLE_compare]

/-- The order of decimals is transitive, whatever their scales. -/
instance : Std.TransCmp (compare : FixedDecimal w → FixedDecimal w → Ordering) where
  eq_swap {a b} := by
    rw [compare_eq, compare_eq, Int.compare_swap]
  isLE_trans {a b c} hab hbc := by
    rw [compare_isLE_iff] at hab hbc ⊢
    have hpow (k : Nat) : (0 : Int) < 10 ^ k := Int.pow_pos (by decide)
    -- both comparisons are brought to the product of the three powers
    refine Int.le_of_mul_le_mul_right ?_ (hpow b.scale.val)
    calc a.value.val * 10 ^ c.scale.val * 10 ^ b.scale.val
        = a.value.val * 10 ^ b.scale.val * 10 ^ c.scale.val := Int.mul_right_comm _ _ _
      _ ≤ b.value.val * 10 ^ a.scale.val * 10 ^ c.scale.val :=
          Int.mul_le_mul_of_nonneg_right hab (Int.le_of_lt (hpow _))
      _ = b.value.val * 10 ^ c.scale.val * 10 ^ a.scale.val := Int.mul_right_comm _ _ _
      _ ≤ c.value.val * 10 ^ b.scale.val * 10 ^ a.scale.val :=
          Int.mul_le_mul_of_nonneg_right hbc (Int.le_of_lt (hpow _))
      _ = c.value.val * 10 ^ a.scale.val * 10 ^ b.scale.val := Int.mul_right_comm _ _ _

/-- A word stands for the same number at two scales only if it is zero. -/
theorem sameValue_word {value : Signed w.bits} {scale other : Unsigned 32} :
    sameValue (⟨value, scale⟩ : FixedDecimal w) (⟨value, other⟩ : FixedDecimal w) = true ↔
      scale = other ∨ value.val = 0 := by
  have hpow (k l : Nat) : (10 : Int) ^ k = 10 ^ l ↔ k = l := by
    have hcast (m : Nat) : (10 : Int) ^ m = ((10 ^ m : Nat) : Int) := (Int.natCast_pow 10 m).symm
    rw [hcast, hcast, Int.natCast_inj]
    exact Nat.pow_right_inj (by decide)
  rw [sameValue, beq_iff_eq, compare_eq, Int.compare_eq_eq]
  by_cases hzero : value.val = 0
  · simp [hzero]
  · rw [Int.mul_eq_mul_left_iff hzero, hpow]
    exact ⟨fun h => Or.inl (Unsigned.ext h.symm),
      fun h => (h.resolve_right hzero).symm ▸ rfl⟩

end FixedDecimal

end ResultSet
