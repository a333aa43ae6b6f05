import Mathlib.Algebra.Order.Ring.Int
import Mathlib.Data.Int.ModEq
import Mathlib.Tactic.Linarith
import Mathlib.Tactic.Ring

/-!
# Multiplication and division one bit at a time

Two classical register algorithms over the integers, without any machine: the
shift-and-add product, in which multiplier and low product share a register,
and non-restoring division, whose partial remainder is negative after each
step that produced the quotient digit 0.
-/

namespace Lib

section Product

variable (w : ℕ) (a m : ℤ) (q : ℕ)

/-- The double register after `n` of `w` multiply steps: the low `n` bits of
the multiplier `q` are used up, the others still stand below the product. -/
def partialProduct (n : ℕ) : ℤ :=
  (m + a * (q % 2 ^ n : ℕ)) * 2 ^ (w - n) + (q / 2 ^ n : ℕ)

/-- Before the first step the registers hold the addend and the multiplier. -/
theorem partialProduct_zero : partialProduct w a m q 0 = m * 2 ^ w + q := by
  simp [partialProduct, Nat.mod_one]

/-- While steps remain, the low bit is the next bit of the multiplier. -/
theorem partialProduct_emod_two {n : ℕ} (hn : n < w) :
    partialProduct w a m q n % 2 = (q / 2 ^ n % 2 : ℕ) := by
  obtain ⟨k, rfl⟩ : ∃ k, w = n + k + 1 := ⟨w - n - 1, by omega⟩
  have hexp : n + k + 1 - n = k + 1 := by omega
  have hsplit : partialProduct (n + k + 1) a m q n =
      (q / 2 ^ n : ℕ) + 2 * ((m + a * (q % 2 ^ n : ℕ)) * 2 ^ k) := by
    unfold partialProduct
    rw [hexp, pow_succ]
    ring
  rw [hsplit, Int.add_mul_emod_self_left]
  norm_cast

/-- A step adds the multiplicand when the low bit is set, and halves. -/
theorem partialProduct_succ {n : ℕ} (hn : n < w) :
    2 * partialProduct w a m q (n + 1) =
      partialProduct w a m q n + (q / 2 ^ n % 2 : ℕ) * (a * 2 ^ w - 1) := by
  obtain ⟨k, rfl⟩ : ∃ k, w = n + k + 1 := ⟨w - n - 1, by omega⟩
  have hmod : q % 2 ^ (n + 1) = q % 2 ^ n + 2 ^ n * (q / 2 ^ n % 2) := Nat.mod_pow_succ
  have hdiv : q / 2 ^ (n + 1) = q / 2 ^ n / 2 := by
    rw [pow_succ, Nat.div_div_eq_div_mul]
  have hbit := Nat.div_add_mod (q / 2 ^ n) 2
  have hexp : n + k + 1 - n = k + 1 := by omega
  have hexp' : n + k + 1 - (n + 1) = k := by omega
  unfold partialProduct
  rw [hmod, hdiv, hexp, hexp']
  set b := q / 2 ^ n % 2
  set h := q / 2 ^ n / 2
  rw [show q / 2 ^ n = 2 * h + b from hbit.symm]
  push_cast
  ring

/-- When all steps are done the double register holds the exact sum of the
addend and the product. -/
theorem partialProduct_width (hq : q < 2 ^ w) : partialProduct w a m q w = m + a * q := by
  simp [partialProduct, Nat.mod_eq_of_lt hq, Nat.div_eq_of_lt hq]

/-- The partial product as one floor division of the unshifted sum. -/
theorem partialProduct_eq_ediv {n : ℕ} (hn : n ≤ w) :
    partialProduct w a m q n =
      ((m + a * (q % 2 ^ n : ℕ)) * 2 ^ w + (q / 2 ^ n : ℕ) * 2 ^ n) / 2 ^ n := by
  obtain ⟨k, rfl⟩ : ∃ k, w = n + k := ⟨w - n, by omega⟩
  have hexp : n + k - n = k := by omega
  have hfactor : (m + a * (q % 2 ^ n : ℕ)) * 2 ^ (n + k) + (q / 2 ^ n : ℕ) * 2 ^ n =
      partialProduct (n + k) a m q n * 2 ^ n := by
    unfold partialProduct
    rw [hexp, pow_add]
    ring
  rw [hfactor, Int.mul_ediv_cancel _ (by positivity)]

end Product

section Division

/-- The partial remainder `r` of a non-restoring division by `d`, when the
dividend bits read so far are those of `n`: it is the true remainder, or the
true remainder less `d` when the last quotient digit is 0. -/
structure PartialRemainder (d n : ℕ) (r : ℤ) : Prop where
  /-- The last digit is 1 exactly when the partial remainder is not negative. -/
  digit : n / d % 2 = if r < 0 then 0 else 1
  /-- The true remainder. -/
  value : ((n % d : ℕ) : ℤ) = if r < 0 then r + d else r

variable {d n : ℕ} {r : ℤ}

/-- Subtracting the divisor from zero starts a division. -/
theorem PartialRemainder.zero (hd : 0 < d) : PartialRemainder d 0 (-d) := by
  constructor <;> simp [hd]

/-- The partial remainder lies between the negated divisor and the divisor. -/
theorem PartialRemainder.bounds (h : PartialRemainder d n r) (hd : 0 < d) :
    -(d : ℤ) ≤ r ∧ r < d := by
  have hlt : n % d < d := Nat.mod_lt _ hd
  have hvalue := h.value
  split at hvalue <;> omega

/-- The next partial remainder: shift in the next bit of the dividend, then add
the divisor to a negative partial remainder and subtract it from another. -/
def nextRemainder (d b : ℕ) (r : ℤ) : ℤ := 2 * r + b + if r < 0 then (d : ℤ) else -d

/-- In terms of the true remainder every step shifts and subtracts. -/
theorem PartialRemainder.next_eq (h : PartialRemainder d n r) (b : ℕ) :
    nextRemainder d b r = 2 * (n % d : ℕ) + b - d := by
  have hvalue := h.value
  unfold nextRemainder
  split at hvalue <;> rename_i hr <;> simp only [hr, if_true, if_false] <;> omega

/-- A step reads one more bit of the dividend. -/
theorem PartialRemainder.step (h : PartialRemainder d n r) (hd : 0 < d) {b : ℕ} (hb : b < 2) :
    PartialRemainder d (2 * n + b) (nextRemainder d b r) ∧
      (2 * n + b) / d = 2 * (n / d) + if nextRemainder d b r < 0 then 0 else 1 := by
  have hlt : n % d < d := Nat.mod_lt _ hd
  have hnext := h.next_eq b
  have hsplit : 2 * n + b = d * (2 * (n / d)) + (2 * (n % d) + b) := by
    have hmul := Nat.div_add_mod n d
    calc 2 * n + b = 2 * (d * (n / d) + n % d) + b := by rw [hmul]
      _ = d * (2 * (n / d)) + (2 * (n % d) + b) := by ring
  have hdiv : (2 * n + b) / d = 2 * (n / d) + (2 * (n % d) + b) / d := by
    rw [hsplit, Nat.mul_add_div hd]
  have hmod : (2 * n + b) % d = (2 * (n % d) + b) % d := by
    rw [hsplit, Nat.mul_add_mod]
  by_cases hneg : nextRemainder d b r < 0
  · have hsmall : 2 * (n % d) + b < d := by omega
    have hquot : (2 * n + b) / d = 2 * (n / d) := by
      rw [hdiv, Nat.div_eq_of_lt hsmall, Nat.add_zero]
    refine ⟨⟨?_, ?_⟩, ?_⟩
    · simp [hneg, hquot]
    · rw [hmod, Nat.mod_eq_of_lt hsmall, if_pos hneg]
      omega
    · simp [hneg, hquot]
  · have hlarge : d ≤ 2 * (n % d) + b := by omega
    have hrest : 2 * (n % d) + b - d < d := by omega
    have hquot : (2 * n + b) / d = 2 * (n / d) + 1 := by
      rw [hdiv, Nat.div_eq_sub_div hd hlarge, Nat.div_eq_of_lt hrest]
    refine ⟨⟨?_, ?_⟩, ?_⟩
    · rw [hquot, if_neg hneg]
      omega
    · rw [hmod, Nat.mod_eq_sub_mod hlarge, Nat.mod_eq_of_lt hrest, if_neg hneg]
      omega
    · rw [hquot, if_neg hneg]

/-- The shared register of a division of the `w`-bit number `n` by `d` after
`k` digits: the dividend bits not yet read above the quotient digits. The first
step shifts in a digit that stands for nothing. -/
def dividendQuotient (w n d k : ℕ) : ℕ :=
  n % 2 ^ (w - (k + 1)) * 2 ^ (k + 1) + n / 2 ^ (w - k) / d

variable {w k : ℕ}

/-- The next bit of the dividend. -/
theorem div_pow_succ_bit (n : ℕ) (hk : k < w) :
    n / 2 ^ (w - (k + 1)) = 2 * (n / 2 ^ (w - k)) + n / 2 ^ (w - (k + 1)) % 2 := by
  have hexp : w - k = (w - (k + 1)) + 1 := by omega
  rw [hexp, pow_succ, ← Nat.div_div_eq_div_mul]
  exact (Nat.div_add_mod _ 2).symm

/-- The digits fit below the dividend bits. -/
theorem quotient_lt (hn : n < 2 ^ w) (hk : k ≤ w) : n / 2 ^ (w - k) / d < 2 ^ k := by
  have hlt : n / 2 ^ (w - k) < 2 ^ k := by
    rw [Nat.div_lt_iff_lt_mul (by positivity), ← pow_add]
    rwa [show k + (w - k) = w by omega]
  exact lt_of_le_of_lt (Nat.div_le_self _ d) hlt

/-- The low bit of the shared register is the last quotient digit. -/
theorem dividendQuotient_mod_two : dividendQuotient w n d k % 2 = n / 2 ^ (w - k) / d % 2 := by
  have hfactor : dividendQuotient w n d k =
      2 * (n % 2 ^ (w - (k + 1)) * 2 ^ k) + n / 2 ^ (w - k) / d := by
    rw [dividendQuotient, pow_succ]
    ring
  rw [hfactor, Nat.mul_add_mod]

/-- The top bit of the shared register is the dividend bit after the next. -/
theorem dividendQuotient_top (hn : n < 2 ^ w) (hk : k + 1 < w) :
    dividendQuotient w n d k / 2 ^ (w - 1) = n / 2 ^ (w - (k + 2)) % 2 := by
  obtain ⟨e, rfl⟩ : ∃ e, w = e + k + 2 := ⟨w - k - 2, by omega⟩
  have hlt := quotient_lt (d := d) hn (show k ≤ e + k + 2 by omega)
  have hmod : n % 2 ^ (e + 1) = n % 2 ^ e + 2 ^ e * (n / 2 ^ e % 2) := Nat.mod_pow_succ
  have hrest : n % 2 ^ e < 2 ^ e := Nat.mod_lt _ (by positivity)
  have hexp : e + k + 2 - (k + 1) = e + 1 := by omega
  have hexp' : e + k + 2 - (k + 2) = e := by omega
  have hexp'' : e + k + 2 - 1 = e + (k + 1) := by omega
  rw [dividendQuotient, hexp, hexp', hexp'', hmod]
  have hsmall : n % 2 ^ e * 2 ^ (k + 1) + n / 2 ^ (e + k + 2 - k) / d < 2 ^ (e + (k + 1)) := by
    calc n % 2 ^ e * 2 ^ (k + 1) + n / 2 ^ (e + k + 2 - k) / d
        < n % 2 ^ e * 2 ^ (k + 1) + 2 ^ (k + 1) := by
          have : 2 ^ k ≤ 2 ^ (k + 1) := Nat.pow_le_pow_right (by decide) (by omega)
          omega
      _ = (n % 2 ^ e + 1) * 2 ^ (k + 1) := by ring
      _ ≤ 2 ^ e * 2 ^ (k + 1) := Nat.mul_le_mul_right _ hrest
      _ = 2 ^ (e + (k + 1)) := (pow_add _ _ _).symm
  have hsplit : (n % 2 ^ e + 2 ^ e * (n / 2 ^ e % 2)) * 2 ^ (k + 1) +
      n / 2 ^ (e + k + 2 - k) / d = 2 ^ (e + (k + 1)) * (n / 2 ^ e % 2) +
        (n % 2 ^ e * 2 ^ (k + 1) + n / 2 ^ (e + k + 2 - k) / d) := by
    rw [pow_add]
    ring
  rw [hsplit, Nat.mul_add_div (by positivity), Nat.div_eq_of_lt hsmall, Nat.add_zero]

/-- When all bits are read the shared register holds the quotient. -/
theorem dividendQuotient_width : dividendQuotient w n d w = n / d := by
  simp [dividendQuotient, Nat.mod_one, show w - (w + 1) = 0 by omega]

/-- A step shifts the shared register and shifts in the new digit. -/
theorem dividendQuotient_succ (hn : n < 2 ^ w) (hk : k < w) {c : ℕ}
    (hc : n / 2 ^ (w - (k + 1)) / d = 2 * (n / 2 ^ (w - k) / d) + c) :
    dividendQuotient w n d (k + 1) = 2 * dividendQuotient w n d k % 2 ^ w + c := by
  have hlt := quotient_lt (d := d) hn (show k + 1 ≤ w from hk)
  rcases Nat.lt_or_ge (k + 1) w with hk' | hk'
  · obtain ⟨e, rfl⟩ : ∃ e, w = e + k + 2 := ⟨w - k - 2, by omega⟩
    have hmod : n % 2 ^ (e + 1) = n % 2 ^ e + 2 ^ e * (n / 2 ^ e % 2) := Nat.mod_pow_succ
    have hrest : n % 2 ^ e < 2 ^ e := Nat.mod_lt _ (by positivity)
    have hexp : e + k + 2 - (k + 1) = e + 1 := by omega
    have hexp' : e + k + 2 - (k + 1 + 1) = e := by omega
    rw [dividendQuotient, dividendQuotient, hc, hexp', hexp, hmod]
    rw [hc] at hlt
    have hsmall : n % 2 ^ e * 2 ^ (k + 2) + 2 * (n / 2 ^ (e + k + 2 - k) / d) <
        2 ^ (e + k + 2) := by
      calc n % 2 ^ e * 2 ^ (k + 2) + 2 * (n / 2 ^ (e + k + 2 - k) / d)
          < n % 2 ^ e * 2 ^ (k + 2) + 2 ^ (k + 2) := by
            have : 2 ^ (k + 1) ≤ 2 ^ (k + 2) := Nat.pow_le_pow_right (by decide) (by omega)
            omega
        _ = (n % 2 ^ e + 1) * 2 ^ (k + 2) := by ring
        _ ≤ 2 ^ e * 2 ^ (k + 2) := Nat.mul_le_mul_right _ hrest
        _ = 2 ^ (e + k + 2) := by rw [← pow_add, Nat.add_assoc]
    have hsplit : 2 * ((n % 2 ^ e + 2 ^ e * (n / 2 ^ e % 2)) * 2 ^ (k + 1) +
        n / 2 ^ (e + k + 2 - k) / d) = 2 ^ (e + k + 2) * (n / 2 ^ e % 2) +
          (n % 2 ^ e * 2 ^ (k + 2) + 2 * (n / 2 ^ (e + k + 2 - k) / d)) := by
      rw [show e + k + 2 = e + (k + 2) by omega, pow_add]
      ring
    rw [hsplit, Nat.mul_add_mod, Nat.mod_eq_of_lt hsmall]
    ring
  · obtain rfl : w = k + 1 := by omega
    have hq := quotient_lt (d := d) hn (show k ≤ k + 1 by omega)
    have hsmall : 2 * (n / 2 ^ (k + 1 - k) / d) < 2 ^ (k + 1) := by
      rw [pow_succ]
      omega
    have hlast : n / 2 ^ (k + 1 - (k + 1)) / d = n / d := by simp
    rw [dividendQuotient_width, ← hlast, hc]
    simp only [dividendQuotient, Nat.sub_self, pow_zero, Nat.mod_one, zero_mul, zero_add,
      Nat.mod_eq_of_lt hsmall]

end Division

end Lib
