import Mathlib.Data.BitVec

/-!
# Masks of bit vectors

Single bits tested through a mask, and the two halves of a word.
-/

namespace Lib

/-- Testing a bit through its mask. -/
theorem and_twoPow_ne_zero {w : ℕ} (x : BitVec w) {k : ℕ} (hk : k < w) :
    x &&& BitVec.twoPow w k ≠ 0 ↔ x.getLsbD k = true := by
  rw [BitVec.and_twoPow]
  split
  · rename_i h
    have hne : BitVec.twoPow w k ≠ 0 := by
      intro h0
      have hbit := congrArg (·.getLsbD k) h0
      simp [hk] at hbit
    simp only [h, hne, ne_eq, not_false_eq_true]
  · rename_i h
    simp [h]

/-- Testing a bit through a literal that is its mask. -/
theorem and_mask_ne_zero {w : ℕ} (x mask : BitVec w) (k : ℕ) (hk : k < w)
    (hmask : mask = BitVec.twoPow w k) : x &&& mask ≠ 0 ↔ x.getLsbD k = true :=
  hmask ▸ and_twoPow_ne_zero x hk

/-- Testing a bit by a mask. -/
theorem decide_and_eq_getLsbD {w : ℕ} (x mask : BitVec w) (k : ℕ) (hk : k < w)
    (hmask : mask = BitVec.twoPow w k) : decide (x &&& mask ≠ 0) = x.getLsbD k := by
  rw [Bool.eq_iff_iff, decide_eq_true_iff]
  exact and_mask_ne_zero x mask k hk hmask

/-- Some bits of a value in which those of a mask are replaced. -/
theorem merge_and {w : ℕ} (x y mask m : BitVec w) :
    ((x &&& ~~~mask) ||| (y &&& mask)) &&& m =
      (x &&& (~~~mask &&& m)) ||| (y &&& (mask &&& m)) := by
  rw [BitVec.and_or_distrib_right, BitVec.and_assoc, BitVec.and_assoc]

/-- The bits of the mask are replaced. -/
theorem merge_and_of_le {w : ℕ} (x y mask : BitVec w) {m : BitVec w} (hold : ~~~mask &&& m = 0#w)
    (hnew : mask &&& m = m) : ((x &&& ~~~mask) ||| (y &&& mask)) &&& m = y &&& m := by
  rw [merge_and, hold, hnew, BitVec.and_zero, BitVec.zero_or]

/-- The other bits are kept. -/
theorem merge_and_of_disjoint {w : ℕ} (x y mask : BitVec w) {m : BitVec w}
    (hold : ~~~mask &&& m = m) (hnew : mask &&& m = 0#w) :
    ((x &&& ~~~mask) ||| (y &&& mask)) &&& m = x &&& m := by
  rw [merge_and, hold, hnew, BitVec.and_zero, BitVec.or_zero]

/-- A bit of a value in which those of a mask are replaced. -/
theorem getLsbD_merge {w : ℕ} (x y mask : BitVec w) {k : ℕ} (hk : k < w) :
    ((x &&& ~~~mask) ||| (y &&& mask)).getLsbD k =
      if mask.getLsbD k then y.getLsbD k else x.getLsbD k := by
  simp only [BitVec.getLsbD_or, BitVec.getLsbD_and, BitVec.getLsbD_not, hk, decide_true,
    Bool.true_and]
  cases mask.getLsbD k <;> simp

/-- Two masks beside the same other bits: they take the same of a value if and only if the value has
no bit that the masks differ in and the others do not have. -/
theorem or_and_eq_iff {w : ℕ} (r x m₁ m₂ : BitVec w) :
    r ||| (x &&& m₁) = r ||| (x &&& m₂) ↔ x &&& (m₁ ^^^ m₂) &&& ~~~r = 0#w := by
  have hbit (a b c d : Bool) :
      (a || (b && c)) = (a || (b && d)) ↔ (b && (c ^^ d) && !a) = false := by
    revert a b c d
    decide
  constructor
  · intro h
    apply BitVec.eq_of_getLsbD_eq
    intro i hi
    have hi' := congrArg (·.getLsbD i) h
    simp only [BitVec.getLsbD_or, BitVec.getLsbD_and] at hi'
    simpa only [BitVec.getLsbD_and, BitVec.getLsbD_xor, BitVec.getLsbD_not, hi, decide_true,
      Bool.true_and, BitVec.getLsbD_zero] using (hbit _ _ _ _).mp hi'
  · intro h
    apply BitVec.eq_of_getLsbD_eq
    intro i hi
    have hi' := congrArg (·.getLsbD i) h
    simp only [BitVec.getLsbD_and, BitVec.getLsbD_xor, BitVec.getLsbD_not, hi, decide_true,
      Bool.true_and, BitVec.getLsbD_zero] at hi'
    simpa only [BitVec.getLsbD_or, BitVec.getLsbD_and] using (hbit _ _ _ _).mpr hi'

/-- A mask of the low bits. -/
theorem and_lowBits {w n : ℕ} (x mask : BitVec w) (hmask : mask.toNat = 2 ^ n - 1) :
    x &&& mask = (x.setWidth n).setWidth w := by
  apply BitVec.eq_of_toNat_eq
  rw [BitVec.toNat_and, hmask, Nat.and_two_pow_sub_one_eq_mod, BitVec.toNat_setWidth,
    BitVec.toNat_setWidth]
  exact (Nat.mod_eq_of_lt ((Nat.mod_le _ _).trans_lt x.isLt)).symm

/-- The low bits are what is left of a narrower vector. -/
theorem setWidth_and_lowBits {w n : ℕ} (x mask : BitVec w) (hmask : mask.toNat = 2 ^ n - 1)
    (hn : n ≤ w) : (x &&& mask).setWidth n = x.setWidth n := by
  rw [and_lowBits x mask hmask, BitVec.setWidth_setWidth_of_le _ hn,
    BitVec.setWidth_setWidth_of_le _ le_rfl]

/-- The low half of a word. -/
theorem and_lowHalf (x : BitVec 32) : x &&& 0xFFFF = (x.setWidth 16).setWidth 32 :=
  and_lowBits x 0xFFFF rfl

/-- The mask of the high half. -/
theorem getLsbD_highHalf {i : ℕ} (hi : i < 32) :
    (0xFFFF0000 : BitVec 32).getLsbD i = decide (16 ≤ i) := by
  revert i
  decide

/-- A word shifted into the high half has nothing below. -/
theorem shiftLeft_and_highHalf (x : BitVec 32) :
    (x <<< 16) &&& (0xFFFF0000 : BitVec 32) = x <<< 16 := by
  apply BitVec.eq_of_getLsbD_eq
  intro i hi
  rw [BitVec.getLsbD_and, getLsbD_highHalf hi, BitVec.getLsbD_shiftLeft]
  by_cases h : i < 16
  · simp [h]
  · simp [Nat.le_of_not_lt h]

/-- Only the low half of a word is shifted into the high half. -/
theorem setWidth_shiftLeft (x : BitVec 32) : (x.setWidth 16).setWidth 32 <<< 16 = x <<< 16 := by
  apply BitVec.eq_of_toNat_eq
  simp only [BitVec.toNat_shiftLeft, BitVec.toNat_setWidth, Nat.shiftLeft_eq]
  omega

end Lib
