import Mathlib.Data.BitVec

/-!
# Fields of bit vectors

A field is given by its position and its size. It is taken out of a bit vector as a number, and
replaced by the low bits of another one.
-/

namespace Lib

variable {n : ℕ}

/-- The lowest bits. -/
def lowMask (n size : ℕ) : BitVec n := BitVec.ofNat n (2 ^ size - 1)

/-- The field of a bit vector. -/
def field (pos size : ℕ) (w : BitVec n) : BitVec n := w >>> pos &&& lowMask n size

/-- The bit vector with another field. -/
def setField (pos size : ℕ) (v w : BitVec n) : BitVec n :=
  (w &&& ~~~(lowMask n size <<< pos)) ||| (v &&& lowMask n size) <<< pos

variable {pos size : ℕ}

theorem getLsbD_lowMask {i : ℕ} (hi : i < n) : (lowMask n size).getLsbD i = decide (i < size) := by
  rw [lowMask, BitVec.getLsbD_ofNat, Nat.testBit_two_pow_sub_one]
  simp [hi]

/-- The lowest bits, made by a shift. -/
theorem shiftLeft_sub_one (h : size < n) : (1#n <<< size) - 1#n = lowMask n size := by
  have hpower : 1#n <<< size = BitVec.ofNat n (2 ^ size) := by
    apply BitVec.eq_of_toNat_eq
    rw [BitVec.toNat_shiftLeft, BitVec.toNat_ofNat, BitVec.toNat_ofNat,
      Nat.mod_eq_of_lt (Nat.one_lt_two_pow (by omega)), Nat.shiftLeft_eq, Nat.one_mul]
  rw [hpower, lowMask]
  exact BitVec.ofNat_sub_ofNat_of_le _ _ (Nat.one_lt_two_pow (by omega)) (Nat.one_le_two_pow)

/-- No bits. -/
theorem lowMask_zero (n : ℕ) : lowMask n 0 = 0#n := rfl

/-- A bit of a field. -/
theorem getLsbD_field {i : ℕ} (w : BitVec n) (hi : i < n) :
    (field pos size w).getLsbD i = (decide (i < size) && w.getLsbD (pos + i)) := by
  rw [field, BitVec.getLsbD_and, BitVec.getLsbD_ushiftRight, getLsbD_lowMask hi, Bool.and_comm]

/-- The bits outside a field are kept. -/
theorem getLsbD_setField {i : ℕ} (v w : BitVec n) (hi : i < n) :
    (setField pos size v w).getLsbD i =
      if pos ≤ i ∧ i < pos + size then v.getLsbD (i - pos) else w.getLsbD i := by
  simp only [setField, BitVec.getLsbD_or, BitVec.getLsbD_and, BitVec.getLsbD_not,
    BitVec.getLsbD_shiftLeft, hi, decide_true, Bool.true_and]
  by_cases hpos : pos ≤ i
  · rw [getLsbD_lowMask (by omega)]
    by_cases hend : i < pos + size
    · simp [show ¬i < pos by omega, show i - pos < size by omega, hpos, hend]
    · simp [show ¬i < pos by omega, show ¬i - pos < size by omega, hend]
  · simp [show i < pos by omega, hpos]

/-- A field as a number. -/
theorem toNat_field (w : BitVec n) : (field pos size w).toNat = w.toNat / 2 ^ pos % 2 ^ size := by
  apply Nat.eq_of_testBit_eq
  intro i
  rw [Nat.testBit_mod_two_pow, Nat.testBit_div_two_pow, BitVec.testBit_toNat, BitVec.testBit_toNat]
  by_cases hi : i < n
  · rw [getLsbD_field w hi, Nat.add_comm i pos]
  · rw [BitVec.getLsbD_of_ge _ _ (Nat.le_of_not_lt hi), BitVec.getLsbD_of_ge _ (i + pos) (by omega),
      Bool.and_false]

/-- The field that was put in is taken out again. -/
theorem field_setField (h : pos + size ≤ n) (v w : BitVec n) :
    field pos size (setField pos size v w) = field 0 size v := by
  apply BitVec.eq_of_getLsbD_eq
  intro i hi
  rw [getLsbD_field _ hi, getLsbD_field _ hi]
  by_cases hsize : i < size
  · rw [getLsbD_setField _ _ (by omega), if_pos ⟨by omega, by omega⟩, Nat.zero_add,
      Nat.add_sub_cancel_left]
  · simp [hsize]

end Lib
