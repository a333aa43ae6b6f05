import Mathlib.Algebra.Group.Nat.Defs
import Mathlib.Algebra.Order.Group.Unbundled.Int
import Mathlib.Tactic.TypeStar

/-!
# Serial numbers

The items of a stream are numbered one after the other. A program has only words for the
numbers, which wrap, and tells which of two numbers is the later one from the sign of
their difference. The same program runs on the integers, which never wrap, and the two
runs agree as long as the numbers that are compared lie close together.
-/

namespace Lib

/-- Numbers for the items of a stream. -/
class SerialNumber (S : Type*) where
  /-- The number before the first item. -/
  start : S
  /-- The number so many items further on. -/
  advance : S → ℕ → S
  /-- By how much the first number seems to be ahead of the second. -/
  diff : S → S → ℤ

export SerialNumber (advance diff)

instance : SerialNumber ℤ where
  start := 0
  advance a n := a + n
  diff a b := a - b

/-- Words compare by their difference with its sign. -/
instance (w : ℕ) : SerialNumber (BitVec w) where
  start := 0
  advance a n := a + BitVec.ofNat w n
  diff a b := (a - b).toInt

/-- The first number comes after the second. -/
def Later {S : Type*} [SerialNumber S] (a b : S) : Prop := diff b a < 0

instance {S : Type*} [SerialNumber S] (a b : S) : Decidable (Later a b) :=
  inferInstanceAs (Decidable (diff b a < 0))

@[simp] theorem start_int : (SerialNumber.start : ℤ) = 0 := rfl

@[simp] theorem advance_int (a : ℤ) (n : ℕ) : advance a n = a + n := rfl

@[simp] theorem diff_int (a b : ℤ) : diff a b = a - b := rfl

@[simp] theorem later_int {a b : ℤ} : Later a b ↔ b < a := sub_neg

/-! ### Numbers that wrap -/

section Wrap

variable {w : ℕ} {a b : ℤ}

/-- The word that stands for a number. -/
def wrap (w : ℕ) (a : ℤ) : BitVec w := BitVec.ofInt w a

/-- The numbers lie within half the range of a word of each other. -/
def Close (w : ℕ) (a b : ℤ) : Prop := -2 ^ w ≤ 2 * (a - b) ∧ 2 * (a - b) < 2 ^ w

@[simp] theorem wrap_start : wrap w 0 = SerialNumber.start := BitVec.ofInt_ofNat w 0

theorem wrap_advance (a : ℤ) (n : ℕ) : wrap w (a + n) = advance (wrap w a) n := by
  rw [wrap, BitVec.ofInt_add, BitVec.ofInt_natCast]
  rfl

/-- The difference of two words is that of their numbers, up to the range of a word. -/
theorem diff_wrap_eq_bmod (a b : ℤ) : diff (wrap w a) (wrap w b) = (a - b).bmod (2 ^ w) := by
  change (BitVec.ofInt w a - BitVec.ofInt w b).toInt = (a - b).bmod (2 ^ w)
  rw [BitVec.toInt_sub, BitVec.toInt_ofInt, BitVec.toInt_ofInt, Int.bmod_sub_bmod,
    Int.sub_bmod_bmod]

/-- The difference of close numbers is told from the words. -/
theorem diff_wrap (h : Close w a b) : diff (wrap w a) (wrap w b) = a - b := by
  obtain ⟨hge, hlt⟩ := h
  rw [diff_wrap_eq_bmod]
  exact Int.bmod_eq_of_le_mul_two (by push_cast; omega) (by push_cast; omega)

/-- Close numbers compare as their words do. -/
theorem later_wrap (h : Close w b a) : Later (wrap w a) (wrap w b) ↔ b < a := by
  rw [Later, diff_wrap h]
  exact sub_neg

/-- Numbers less than the range apart have different words. -/
theorem wrap_eq_iff (hge : -2 ^ w < a - b) (hlt : a - b < 2 ^ w) :
    wrap w a = wrap w b ↔ a = b := by
  refine ⟨fun h => ?_, fun h => by rw [h]⟩
  have hmod : (a - b).bmod (2 ^ w) = 0 := by
    rw [← diff_wrap_eq_bmod, h, diff_wrap_eq_bmod, sub_self, Int.zero_bmod]
  have hdvd : (2 : ℤ) ^ w ∣ a - b := by
    have := Int.dvd_self_sub_of_bmod_eq hmod
    rwa [sub_zero, Int.natCast_pow] at this
  exact sub_eq_zero.mp (Int.eq_zero_of_abs_lt_dvd hdvd (abs_lt.mpr ⟨hge, hlt⟩))

end Wrap

end Lib
