import Mathlib.Data.BitVec
import Mathlib.Data.Nat.Bitwise

/-!
# 32-bit arithmetic of the processor

The macros and the rotation of `m32.h` and `m32.c`. The operands `mdata` and
`adata` are C `int`s; both they and the unsigned registers are 32-bit words
here, with the signedness in the comparison. Sums and differences wrap.
-/

namespace Usim

/-- A 32-bit word of the machine. -/
abbrev Word := BitVec 32

-- The arrays whose elements have literals or remainders as subscripts.
instance neZero_4 : NeZero 4 := ⟨by decide⟩
instance neZero_8 : NeZero 8 := ⟨by decide⟩
instance neZero_16 : NeZero 16 := ⟨by decide⟩
instance neZero_512 : NeZero 512 := ⟨by decide⟩
instance neZero_32768 : NeZero 0o100000 := ⟨by decide⟩

/-- The sum written by the macro `add32`. -/
def add32Out (a b : Word) (ci : Bool) : Word := a + b + (if ci then 1 else 0)

/-- The carry written by `add32`, a signed comparison of `b` with `~a`. -/
def add32Carry (a b : Word) (ci : Bool) : Word :=
  if ci then (if (~~~a).sle b then 0 else 1) else (if (~~~a).slt b then 0 else 1)

/-- The difference written by the macro `sub32`. -/
def sub32Out (a b : Word) (ci : Bool) : Word := a - b - (if ci then 0 else 1)

/-- The carry written by `sub32` after the difference `out`, an unsigned comparison. -/
def sub32Carry (out a : Word) : Word := if out < a then 1 else 0

/-- The macro `abs32`. The most negative word is its own absolute value. -/
def abs32 (a : Word) : Word := if a.slt 0 then ~~~a + 1 else a

/-- `rol32` of `m32.c`, for a rotation below 32: the affected bits are saved
through a mask that an arithmetic shift builds. -/
def rol32 (value : Word) (bitstorotate : ℕ) : Word :=
  let mask : Word := if bitstorotate = 0 then 0 else (0x80000000#32).sshiftRight bitstorotate
  let tmp : Word := (((value &&& mask).setWidth 64) >>> (32 - bitstorotate)).setWidth 32
  (value <<< bitstorotate) ||| tmp

/-- The mask and shift of `rol32` rotate left. -/
theorem rol32_eq_rotateLeft (v : Word) {n : ℕ} (hn : n < 32) : rol32 v n = v.rotateLeft n := by
  apply BitVec.eq_of_getLsbD_eq
  intro i hi
  rw [BitVec.getLsbD_rotateLeft_of_le hn]
  rcases Nat.eq_zero_or_pos n with rfl | hpos
  · simp [rol32, hi]
  · simp only [rol32, if_neg (Nat.pos_iff_ne_zero.mp hpos), BitVec.getLsbD_or,
      BitVec.getLsbD_shiftLeft, BitVec.getLsbD_setWidth, BitVec.getLsbD_ushiftRight,
      BitVec.getLsbD_and, BitVec.getLsbD_sshiftRight]
    by_cases hin : i < n
    · have hmsb : (0x80000000#32).msb = true := by decide
      have htop : ¬ n + (32 - n + i) < 32 := by omega
      have hbound : 32 - n + i < 32 := by omega
      simp [hi, hin, hmsb, htop, hbound, Nat.not_le.mpr hbound, Nat.lt_trans hbound]
    · have hout : v.getLsbD (32 - n + i) = false := by
        apply BitVec.getLsbD_of_ge
        omega
      simp [hi, hin, hout]

/-- Masking with the low `n` bits. -/
theorem toNat_and_mask (x mask : Word) {n : ℕ} (h : mask.toNat = 2 ^ n - 1) :
    (x &&& mask).toNat = x.toNat % 2 ^ n := by
  rw [BitVec.toNat_and, h, Nat.and_two_pow_sub_one_eq_mod]

/-- Shifting a word right divides it. -/
theorem toNat_shiftRight (x : Word) (n : ℕ) : (x >>> n).toNat = x.toNat / 2 ^ n := by
  rw [BitVec.toNat_ushiftRight, Nat.shiftRight_eq_div_pow]

/-- Joining a field to the bits above it, when no bit is shifted out. -/
theorem toNat_shiftLeft_or (x y : Word) {n : ℕ} (hy : y.toNat < 2 ^ n)
    (hx : x.toNat * 2 ^ n < 2 ^ 32) : ((x <<< n) ||| y).toNat = x.toNat * 2 ^ n + y.toNat := by
  rw [BitVec.toNat_or, BitVec.toNat_shiftLeft, Nat.shiftLeft_eq, Nat.mod_eq_of_lt hx,
    Nat.mul_comm, ← Nat.two_pow_add_eq_or_of_lt hy]

/-- Shifting a word right, with a bit shifted in at the top. -/
theorem toNat_shiftRight_in (x : Word) (c : Prop) [Decidable c] :
    ((x >>> 1) ||| (if c then 0x80000000 else 0)).toNat =
      x.toNat / 2 + if c then 2 ^ 31 else 0 := by
  have hlt : x.toNat / 2 < 2 ^ 31 := by
    have := x.isLt
    omega
  split
  · have hor := Nat.two_pow_add_eq_or_of_lt hlt 1
    rw [BitVec.toNat_or, BitVec.toNat_ushiftRight, Nat.shiftRight_eq_div_pow, pow_one,
      Nat.or_comm, show BitVec.toNat (0x80000000 : Word) = 2 ^ 31 * 1 from rfl, ← hor]
    omega
  · simp [Nat.shiftRight_eq_div_pow]

/-- Shifting a word left, with a bit shifted in at the bottom. -/
theorem toNat_shiftLeft_in (x : Word) (c : Prop) [Decidable c] :
    ((x <<< 1) ||| (if c then 1 else 0)).toNat =
      2 * x.toNat % 2 ^ 32 + if c then 1 else 0 := by
  have hshift : (x <<< 1).toNat = 2 * (x.toNat % 2 ^ 31) := by
    rw [BitVec.toNat_shiftLeft, Nat.shiftLeft_eq]
    omega
  split
  · have hor := Nat.two_pow_add_eq_or_of_lt (i := 1) (b := 1) (by decide) (x.toNat % 2 ^ 31)
    rw [pow_one] at hor
    rw [BitVec.toNat_or, hshift, show BitVec.toNat (1 : Word) = 1 from rfl, ← hor]
    omega
  · rw [BitVec.toNat_or, hshift, show BitVec.toNat (0 : Word) = 0 from rfl, Nat.or_zero]
    omega

/-- The low bit of a word. -/
theorem and_one_ne_zero {x : Word} : x &&& 1 ≠ 0 ↔ x.toNat % 2 = 1 := by
  rw [Ne, ← BitVec.toNat_inj, BitVec.toNat_and, show BitVec.toNat (1 : Word) = 1 from rfl,
    Nat.and_one_is_mod, show BitVec.toNat (0 : Word) = 0 from rfl]
  omega

/-- The sign bit of a word. -/
theorem and_sign_ne_zero {x : Word} : x &&& 0x80000000 ≠ 0 ↔ 2 ^ 31 ≤ x.toNat := by
  have hone := Nat.and_two_pow x.toNat 31
  rw [Ne, ← BitVec.toNat_inj, BitVec.toNat_and,
    show BitVec.toNat (0x80000000 : Word) = 2 ^ 31 from rfl,
    show BitVec.toNat (0 : Word) = 0 from rfl, hone, Nat.testBit_eq_decide_div_mod_eq]
  have := x.isLt
  by_cases h : x.toNat / 2 ^ 31 % 2 = 1
  · simp only [h, decide_true, Bool.toNat_true]
    omega
  · simp only [h, decide_false, Bool.toNat_false]
    omega

/-- The signed and the unsigned reading of a word agree modulo 2^32. -/
theorem toNat_eq_toInt_emod (x : Word) : (x.toNat : ℤ) = x.toInt % 2 ^ 32 := by
  have := x.isLt
  rw [BitVec.toInt_eq_toNat_cond]
  split <;> omega

/-- A word is negative when its sign bit is set. -/
theorem toInt_neg_iff {x : Word} : x.toInt < 0 ↔ 2 ^ 31 ≤ x.toNat := by
  have := x.isLt
  rw [BitVec.toInt_eq_toNat_cond]
  split <;> omega

/-- The sum of two words without a carry in wraps. -/
theorem toNat_add32Out (a b : Word) :
    ((add32Out a b false).toNat : ℤ) = (a.toInt + b.toInt) % 2 ^ 32 := by
  simp only [add32Out, Bool.false_eq_true, if_false, BitVec.ofNat_eq_ofNat, BitVec.add_zero,
    BitVec.toNat_add, BitVec.toInt_eq_toNat_cond]
  have ha := a.isLt
  have hb := b.isLt
  split <;> split <;> omega

/-- The carry of the sum of two words without a carry in is its true sign. -/
theorem add32Carry_ne_zero (a b : Word) :
    add32Carry a b false ≠ 0 ↔ a.toInt + b.toInt < 0 := by
  have hnot : (~~~a).toInt = -a.toInt - 1 := by
    rw [BitVec.toInt_not, Int.bmod_def, BitVec.toInt_eq_toNat_cond]
    have ha := a.isLt
    split <;> split <;> omega
  simp only [add32Carry, Bool.false_eq_true, if_false, BitVec.slt_eq_decide, hnot]
  by_cases h : -a.toInt - 1 < b.toInt
  · simp only [h, decide_true, if_true, ne_eq, not_true_eq_false, false_iff]
    omega
  · simp only [h, decide_false, Bool.false_eq_true, if_false]
    refine ⟨fun _ => by omega, fun _ => by decide⟩

/-- The difference of two words without a borrow in wraps. -/
theorem toNat_sub32Out (a b : Word) :
    ((sub32Out a b true).toNat : ℤ) = ((a.toNat : ℤ) - b.toNat) % 2 ^ 32 := by
  simp only [sub32Out, if_true, BitVec.ofNat_eq_ofNat, BitVec.sub_zero, BitVec.toNat_sub]
  have ha := a.isLt
  have hb := b.isLt
  omega

/-- `abs32` is the absolute value, read as an unsigned word. -/
theorem toNat_abs32 (a : Word) : (abs32 a).toNat = a.toInt.natAbs := by
  have ha := a.isLt
  unfold abs32
  rw [BitVec.toInt_eq_toNat_cond]
  by_cases h : a.slt 0
  · rw [if_pos h, show ~~~a + 1 = -a from (BitVec.neg_eq_not_add a).symm, BitVec.toNat_neg]
    have hneg : 2 ^ 31 ≤ a.toNat := by
      rw [← toInt_neg_iff]
      simpa [BitVec.slt_iff_toInt_lt] using h
    split <;> omega
  · rw [if_neg h]
    have hnonneg : ¬ 2 ^ 31 ≤ a.toNat := by
      rw [← toInt_neg_iff]
      simpa [BitVec.slt_iff_toInt_lt] using h
    split <;> omega

/-- The signed reading of a word that is congruent to a number in the signed range. -/
theorem toInt_eq_of_emod {x : Word} {r : ℤ} (hx : (x.toNat : ℤ) = r % 2 ^ 32)
    (hlo : -2 ^ 31 ≤ r) (hhi : r < 2 ^ 31) : x.toInt = r := by
  rw [BitVec.toInt_eq_toNat_cond]
  split <;> omega

/-- Two bit fields joined, as a number. -/
theorem toNat_append {n k : ℕ} (x : BitVec n) (y : BitVec k) :
    (x ++ y).toNat = x.toNat * 2 ^ k + y.toNat := by
  rw [BitVec.toNat_append, Nat.shiftLeft_eq, Nat.mul_comm, ← Nat.two_pow_add_eq_or_of_lt y.isLt]

/-- A value that fits a field is that field. -/
theorem setWidth_setWidth_of_lt {x : Word} {n : ℕ} (h : x.toNat < 2 ^ n) :
    (x.setWidth n).setWidth 32 = x := by
  apply BitVec.eq_of_toNat_eq
  rw [BitVec.toNat_setWidth, BitVec.toNat_setWidth, Nat.mod_eq_of_lt h,
    Nat.mod_eq_of_lt x.isLt]

end Usim
