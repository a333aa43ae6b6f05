import Usim.Lib.StepArithmetic
import Usim.MachineControl
import Usim.Uexec.Issue

/-!
# The multiply step

The ALU operation 040 with the output bus and the Q register shifted right is
one step of a shift-and-add multiplication: the M operand and Q form a double
register that holds the partial product above the unused multiplier bits.
-/

namespace Usim

open Lib

variable {β : Type} {port : VmPort β} {a : Fin 1024} {m : Fin 32} {w : BitVec 64}

/-- The double register of the M operand, signed, and Q, unsigned. -/
def Operands.product (x : Operands) : ℤ := x.m.toInt * 2 ^ 32 + x.q.toNat

/-- The ALU output and carry of a multiply step. -/
theorem aluResult_multiply (x : Operands) :
    aluResult 0o40 x.m x.a false x.q x.aluOut =
      if x.q &&& 1 ≠ 0 then (add32Out x.a x.m false, add32Carry x.a x.m false)
      else (x.m, if x.m &&& 0x80000000 ≠ 0 then 1 else 0) := rfl

/-- The sum that a multiply step forms, wide enough not to wrap. -/
def Operands.wideSum (x : Operands) : ℤ :=
  x.m.toInt + (x.q.toNat % 2 : ℕ) * x.a.toInt

/-- The ALU of a multiply step puts out the low word of the sum, and its sign as the carry. -/
theorem aluResult_wideSum (x : Operands) :
    let r := aluResult 0o40 x.m x.a false x.q x.aluOut
    (r.1.toNat : ℤ) = x.wideSum % 2 ^ 32 ∧ (r.2 ≠ 0 ↔ x.wideSum < 0) := by
  rw [aluResult_multiply]
  unfold Operands.wideSum
  split
  · rename_i hq
    rw [and_one_ne_zero.mp hq, Nat.cast_one, one_mul, add_comm]
    exact ⟨toNat_add32Out x.a x.m, add32Carry_ne_zero x.a x.m⟩
  · rename_i hq
    have hq0 : x.q.toNat % 2 = 0 := by
      have := mt and_one_ne_zero.mpr hq
      omega
    have hsign := (and_sign_ne_zero (x := x.m)).trans toInt_neg_iff.symm
    rw [hq0, Nat.cast_zero, zero_mul, add_zero]
    refine ⟨toNat_eq_toInt_emod x.m, ?_⟩
    by_cases h : x.m.toInt < 0
    · rw [if_pos (hsign.mpr h)]
      exact ⟨fun _ => h, fun _ => (by decide : (1 : Word) ≠ 0)⟩
    · rw [if_neg (mt hsign.mp h)]
      exact ⟨fun h' => absurd rfl h', fun h' => absurd h' h⟩

/-- The sum of two signed words is below 2^32 in magnitude. -/
theorem Operands.wideSum_bounds (x : Operands) : -2 ^ 32 ≤ x.wideSum ∧ x.wideSum < 2 ^ 32 := by
  have hm := x.m.toInt_lt
  have hm' := x.m.le_toInt
  have ha := x.a.toInt_lt
  have ha' := x.a.le_toInt
  unfold wideSum
  rcases Nat.mod_two_eq_zero_or_one x.q.toNat with h | h <;> simp only [h] <;> omega

/-- One multiply step adds the A operand when the low bit of Q is set, and
halves the double register exactly. -/
theorem Operands.next_multiply (h : AluWriteBack a m 0o40 2 2 w) (x : Operands) :
    2 * (x.next w).product =
        x.product + (x.q.toNat % 2 : ℕ) * (x.a.toInt * 2 ^ 32 - 1) ∧
      (x.next w).a = x.a := by
  obtain ⟨hlow, hcarry⟩ := aluResult_wideSum x
  obtain ⟨hlo, hhi⟩ := x.wideSum_bounds
  have haluop : ir w 3 6 = 0o40 := BitVec.eq_of_toNat_eq h.aluop
  refine ⟨?_, rfl⟩
  have hout : (x.next w).m.toInt = x.wideSum / 2 := by
    have hm := x.m.isLt
    simp only [next, haluop, h.carryIn, nextOut, h.outSelect, ne_eq, not_true_eq_false,
      decide_false, BitVec.toInt_eq_toNat_cond, toNat_shiftRight_in, hcarry]
    split_ifs <;> omega
  have hq : ((x.next w).q.toNat : ℤ) = x.q.toNat / 2 + x.wideSum % 2 * 2 ^ 31 := by
    simp only [next, haluop, h.carryIn, nextQ, h.qSelect, ne_eq, not_true_eq_false,
      decide_false, toNat_shiftRight_in, and_one_ne_zero]
    split_ifs <;> omega
  calc 2 * (x.next w).product
      = 2 * (x.wideSum / 2 * 2 ^ 32 + (x.q.toNat / 2 + x.wideSum % 2 * 2 ^ 31)) := by
        rw [product, hout, hq]
    _ = x.wideSum * 2 ^ 32 + (x.q.toNat - (x.q.toNat % 2 : ℕ)) := by omega
    _ = x.product + (x.q.toNat % 2 : ℕ) * (x.a.toInt * 2 ^ 32 - 1) := by
        rw [product, wideSum]
        ring

/-- After `n` of 32 multiply steps that began with the operands `x`, the double
register `y` holds the partial product, and the A operand is the same. -/
def Multiplied (x : Operands) (n : ℕ) (y : Operands) : Prop :=
  y.product = partialProduct 32 x.a.toInt x.m.toInt x.q.toNat n ∧ y.a = x.a

/-- A multiply step leads from one partial product to the next. -/
theorem Multiplied.next (h : AluWriteBack a m 0o40 2 2 w) {x y : Operands} {n : ℕ} (hn : n < 32)
    (hy : Multiplied x n y) : Multiplied x (n + 1) (y.next w) := by
  obtain ⟨hproduct, ha⟩ := hy
  obtain ⟨hnext, ha'⟩ := Operands.next_multiply h y
  have hbit := partialProduct_emod_two 32 x.a.toInt x.m.toInt x.q.toNat hn
  have hsucc := partialProduct_succ 32 x.a.toInt x.m.toInt x.q.toNat hn
  have hlow : y.q.toNat % 2 = x.q.toNat / 2 ^ n % 2 := by
    rw [← hproduct, Operands.product] at hbit
    omega
  refine ⟨?_, ha'.trans ha⟩
  rw [hlow, ha, hproduct, ← hsucc] at hnext
  exact mul_left_cancel₀ two_ne_zero hnext

/-- After `n` multiply steps from any state, the M operand and Q hold the sum
of the initial M operand and the product of the A operand with the `n` low
multiplier bits, above the unused bits of the multiplier. After all 32 steps
they hold the exact result. -/
theorem multiply_steps (port : VmPort β) (a : Fin 1024) (m : Fin 32) (ws : List (BitVec 64))
    (hws : ∀ w ∈ ws, AluWriteBack a m 0o40 2 2 w) (hlength : ws.length ≤ 32) (s : Engine β) :
    Post (issueAll port ws) s
      (fun _ t =>
        (t.mmem m).toInt * 2 ^ 32 + t.q.toNat =
          (((s.mmem m).toInt + (s.amem a).toInt * (s.q.toNat % 2 ^ ws.length : ℕ)) * 2 ^ 32 +
            (s.q.toNat / 2 ^ ws.length : ℕ) * 2 ^ ws.length) / 2 ^ ws.length ∧
        (ws.length = 32 → (t.mmem m).toInt * 2 ^ 32 + t.q.toNat =
          (s.mmem m).toInt + (s.amem a).toInt * s.q.toNat))
      (fun _ _ => False) := by
  have hzero : Multiplied (s.operands a m) 0 (s.operands a m) :=
    ⟨(partialProduct_zero 32 _ _ _).symm, rfl⟩
  have hrun : Post (issueAll port ws) s
      (fun _ t => Multiplied (s.operands a m) (0 + ws.length) (t.operands a m))
      (fun _ _ => False) :=
    post_issueAll port hws (fun w i x hw hi hx => hx.next hw (by omega)) hzero
  refine hrun.mono (fun _ t ht => ?_) (fun _ _ h => h)
  rw [zero_add] at ht
  refine ⟨ht.1.trans (partialProduct_eq_ediv 32 _ _ _ hlength), fun h32 => ?_⟩
  rw [h32] at ht
  exact ht.1.trans (partialProduct_width 32 _ _ _ s.q.isLt)

/-- The multiply sequence started with 5 in Q and -3 in every A memory location. -/
theorem multiply_steps_neg_three_five :
    Post (issueAll noBus (List.replicate 32 (aluWriteBack 40 1 0o40 2 2)))
      { powerOn (fun _ => 0) (fun _ => 0) () with q := 5, amem := fun _ => -3 }
      (fun _ t => (t.mmem 1).toInt * 2 ^ 32 + t.q.toNat = -15) (fun _ _ => False) := by
  have hws : ∀ w ∈ List.replicate 32 (aluWriteBack 40 1 0o40 2 2),
      AluWriteBack 40 1 0o40 2 2 w := fun w hw => by
    rw [List.eq_of_mem_replicate hw]
    exact aluWriteBack_fields (by decide) (by decide) (by decide) (by decide)
  refine (multiply_steps noBus 40 1 _ hws (by decide) _).mono ?_ (fun _ _ h => h)
  intro _ t ht
  rw [ht.2 (by decide)]
  decide

end Usim
