import ResultSet.Row.LengthPrefix

/-!
# Length prefixes read back

`LengthPrefix.size`, `LengthPrefix.encode` and `LengthPrefix.read` agree on the
four forms of a prefix.

* `encode_length` says that a prefix has the size that is asked for it.
* `read_encode` reads the prefix of every length below `2 ^ 64` back, whatever
  bytes stand behind it.

Each of them splits on the four ranges once; `littleEndian` is dealt with for
every width.
-/

namespace ResultSet

/-! ## Little-endian numbers -/

@[simp] theorem littleEndian_length (width n : Nat) : (littleEndian width n).length = width := by
  induction width generalizing n with
  | zero => rfl
  | succ width ih => rw [littleEndian, List.length_cons, ih]

/-- A number that fits the width is read back. -/
theorem ofLittleEndian_littleEndian (width n : Nat) (h : n < 256 ^ width) :
    ofLittleEndian (littleEndian width n) = n := by
  induction width generalizing n with
  | zero =>
    have hzero : n = 0 := by
      rw [Nat.pow_zero] at h
      omega
    rw [hzero]
    rfl
  | succ width ih =>
    have hrest : n / 256 < 256 ^ width := by
      rw [Nat.pow_succ] at h
      exact Nat.div_lt_of_lt_mul (by rw [Nat.mul_comm]; exact h)
    have hbyte : (UInt8.ofNat (n % 256)).toNat = n % 256 := by
      rw [UInt8.toNat_ofNat']
      omega
    rw [littleEndian, ofLittleEndian, ih _ hrest, hbyte]
    omega

namespace LengthPrefix

/-! ## The size of a prefix -/

/-- A prefix takes as many bytes as `size` says. -/
theorem encode_length (length : Nat) : (encode length).length = size length := by
  unfold encode size
  by_cases h1 : length ≤ 250
  · rw [if_pos h1, if_pos h1]
    rfl
  rw [if_neg h1, if_neg h1]
  by_cases h2 : length ≤ 0xFFFF
  · rw [if_pos h2, if_pos h2]
    rfl
  rw [if_neg h2, if_neg h2]
  by_cases h3 : length ≤ 0xFFFFFF
  · rw [if_pos h3, if_pos h3]
    rfl
  · rw [if_neg h3, if_neg h3]
    rfl

theorem size_pos (length : Nat) : 0 < size length := by
  unfold size
  split
  · omega
  · split
    · omega
    · split <;> omega

/-! ## Reading a prefix -/

theorem mark_ofNat {length : Nat} (h : length ≤ 250) :
    mark (UInt8.ofNat length) = .short length := by
  have hbyte : (UInt8.ofNat length).toNat = length := by
    rw [UInt8.toNat_ofNat']
    omega
  rw [mark, hbyte, if_pos h]

/-- The number behind a mark is read back. -/
theorem read_long {mark : UInt8} {width : Nat} (hmark : LengthPrefix.mark mark = .long width)
    (offset n : Nat) (rest : Bytes) (h : n < 256 ^ width) :
    read offset (mark :: (littleEndian width n ++ rest)) = .ok (some (n, 1 + width)) := by
  have htake : (littleEndian width n ++ rest).take width = littleEndian width n :=
    List.take_left' (littleEndian_length width n)
  simp only [read, hmark]
  rw [htake, if_pos (littleEndian_length width n), ofLittleEndian_littleEndian width n h]

/-- The prefix of a length is read back, whatever stands behind it. -/
theorem read_encode (offset length : Nat) (rest : Bytes) (h : length < 2 ^ (64 : Nat)) :
    read offset (encode length ++ rest) = .ok (some (length, size length)) := by
  unfold encode size
  by_cases h1 : length ≤ 250
  · rw [if_pos h1, if_pos h1]
    simp only [List.cons_append, read, mark_ofNat h1]
  rw [if_neg h1, if_neg h1]
  by_cases h2 : length ≤ 0xFFFF
  · rw [if_pos h2, if_pos h2]
    exact read_long (by decide) offset length rest (by omega)
  rw [if_neg h2, if_neg h2]
  by_cases h3 : length ≤ 0xFFFFFF
  · rw [if_pos h3, if_pos h3]
    exact read_long (by decide) offset length rest (by omega)
  · rw [if_neg h3, if_neg h3]
    exact read_long (by decide) offset length rest (by omega)

end LengthPrefix

end ResultSet
