import Mathlib.Tactic.IntervalCases
import Usim.CSharp.Operations

/-!
# The arithmetic operations and the true sign

The operations 020 to 037 of `arithOps` in `uexec.c`, and of `ArithOps` in `UCode.cs`,
compared with what their formulas give without overflow. The carry is right when it is
the sign of that number: output select 2 shifts it in.
-/

namespace Usim

open Lib

/-! ### Formulas -/

/-- The exact value of the formula of an arithmetic operation. -/
def arithFormula (op : ℕ) (mdata adata : Word) (cin : Bool) : ℤ :=
  let carry : ℤ := if cin then 1 else 0
  match op with
  | 0o20 => carry - 1
  | 0o21 => (mdata &&& adata).toInt + carry - 1
  | 0o22 => (mdata &&& ~~~adata).toInt + carry - 1
  | 0o23 => mdata.toInt + carry - 1
  | 0o24 => (mdata ||| ~~~adata).toInt + carry
  | 0o25 => (mdata ||| ~~~adata).toInt + (mdata &&& adata).toInt + carry
  | 0o26 => mdata.toInt - adata.toInt + carry - 1
  | 0o27 => (mdata ||| ~~~adata).toInt + mdata.toInt + carry
  | 0o30 => (mdata ||| adata).toInt + carry
  | 0o31 => mdata.toInt + adata.toInt + carry
  | 0o32 => (mdata ||| adata).toInt + (mdata &&& ~~~adata).toInt + carry
  | 0o33 => (mdata ||| adata).toInt + mdata.toInt + carry
  | 0o34 => mdata.toInt + carry
  | 0o35 => mdata.toInt + (mdata &&& adata).toInt + carry
  | 0o36 => mdata.toInt + (mdata ||| ~~~adata).toInt + carry
  | 0o37 => mdata.toInt + mdata.toInt + carry
  | _ => 0

/-- The ALU output is a number modulo 2^32. -/
def IsLowWord (E : ℤ) (aluOut : Word) : Prop := (aluOut.toNat : ℤ) = E % 2 ^ 32

/-- The ALU carry is the sign of a number. -/
def IsSign (E : ℤ) (aluCarry : Word) : Prop := aluCarry = if E < 0 then 1 else 0

/-- The results of an operation whose formula gives `E`: the ALU output, the ALU carry, and
the output bus with output select 2. -/
structure ExactArith (E : ℤ) (r : Word × Word) (shifted : Word) : Prop where
  output : IsLowWord E r.1
  carry : IsSign E r.2
  shifted : IsLowWord (E / 2) shifted

variable {E : ℤ}

/-- The output bus with output select 2 is right where output and carry are. -/
theorem exactArith_iff {p0 : BitVec 64} (hp0 : ((p0 >>> 12) &&& 3).toNat = 2) (hlo : -2 ^ 32 ≤ E)
    (hhi : E < 2 ^ 32) {r : Word × Word} (hr : IsLowWord E r.1) (mdata oldQ : Word) :
    ExactArith E r (nextOut p0 mdata r.1 r.2 oldQ) ↔ IsSign E r.2 := by
  refine ⟨ExactArith.carry, fun hsign => ⟨hr, hsign, ?_⟩⟩
  have hone : (1 : Word) ≠ 0 := by decide
  rw [IsLowWord, nextOut, hp0]
  simp only [toNat_shiftRight_in]
  rw [IsLowWord] at hr
  rw [hsign]
  by_cases hneg : E < 0
  · rw [if_pos hneg, if_pos hone]
    omega
  · rw [if_neg hneg, if_neg (not_not_intro rfl)]
    omega

/-! ### The wide sums -/

/-- A 64-bit sum gives the low word and the sign of its number. -/
theorem wideResult_ofInt (hlo : -2 ^ 33 ≤ E) (hhi : E < 2 ^ 32) :
    IsLowWord E (wideResult (BitVec.ofInt 64 E)).1 ∧
      IsSign E (wideResult (BitVec.ofInt 64 E)).2 := by
  have hint : (BitVec.ofInt 64 E).toInt = E := by
    rw [BitVec.toInt_ofInt, Int.bmod_def]
    omega
  have hshift : ((BitVec.ofInt 64 E).sshiftRight 32).toInt = E / 2 ^ 32 := by
    rw [BitVec.toInt_sshiftRight, hint, Int.shiftRight_eq_div_pow]
    rfl
  constructor
  · rw [IsLowWord, wideResult, BitVec.toNat_setWidth, BitVec.toNat_ofInt]
    omega
  · have hzero : (BitVec.ofInt 64 E).sshiftRight 32 ≠ 0 ↔ E < 0 := by
      rw [Ne, ← BitVec.toInt_inj, hshift]
      change ¬E / 2 ^ 32 = 0 ↔ _
      omega
    rw [IsSign, wideResult]
    simp only [hzero]

/-- A word widened by a carry in. -/
theorem ofInt_add_carry (x : ℤ) (cin : Bool) :
    BitVec.ofInt 64 (x + if cin then 1 else 0) = BitVec.ofInt 64 x + (if cin then 1 else 0) := by
  rw [BitVec.ofInt_add]
  cases cin <;> rfl

/-- Two words widened by a carry in. -/
theorem ofInt_add_add_carry (x y : ℤ) (cin : Bool) :
    BitVec.ofInt 64 (x + y + if cin then 1 else 0) =
      BitVec.ofInt 64 x + BitVec.ofInt 64 y + (if cin then 1 else 0) := by
  rw [ofInt_add_carry, BitVec.ofInt_add]

/-- A word widened by a borrow. -/
theorem ofInt_sub_borrow (x : ℤ) (cin : Bool) :
    BitVec.ofInt 64 (x + (if cin then 1 else 0) - 1) =
      BitVec.ofInt 64 x - (if cin then 0 else 1) := by
  cases cin
  · rw [if_neg Bool.false_ne_true, if_neg Bool.false_ne_true, add_zero, Int.sub_eq_add_neg,
      BitVec.ofInt_add, BitVec.sub_eq_add_neg]
    rfl
  · rw [if_pos rfl, if_pos rfl, add_sub_cancel_right, BitVec.ofNat_eq_ofNat, BitVec.sub_zero]

/-- The operations that form their sum in 64 bits. -/
def IsWide (op : ℕ) : Prop :=
  0o21 ≤ op ∧ op ≤ 0o37 ∧ op ≠ 0o26 ∧ op ≠ 0o31 ∧ op ≠ 0o34 ∧ op ≠ 0o37

/-- The 64-bit sum of an operation is that of its formula. -/
theorem arithOps_wide {op : Word} (hop : IsWide op.toNat) (mdata adata : Word) (cin : Bool)
    (aluOut aluCarry : Word) : arithOps op mdata adata cin aluOut aluCarry =
      wideResult (BitVec.ofInt 64 (arithFormula op.toNat mdata adata cin)) := by
  obtain ⟨hlo, hhi, h26, h31, h34, h37⟩ := hop
  unfold arithOps arithFormula
  generalize op.toNat = n at *
  interval_cases n
  · exact congrArg wideResult (ofInt_sub_borrow _ cin).symm
  · exact congrArg wideResult (ofInt_sub_borrow _ cin).symm
  · exact congrArg wideResult (ofInt_sub_borrow _ cin).symm
  · exact congrArg wideResult (ofInt_add_carry _ cin).symm
  · exact congrArg wideResult (ofInt_add_add_carry _ _ cin).symm
  · contradiction
  · exact congrArg wideResult (ofInt_add_add_carry _ _ cin).symm
  · exact congrArg wideResult (ofInt_add_carry _ cin).symm
  · contradiction
  · exact congrArg wideResult (ofInt_add_add_carry _ _ cin).symm
  · exact congrArg wideResult (ofInt_add_add_carry _ _ cin).symm
  · contradiction
  · exact congrArg wideResult (ofInt_add_add_carry _ _ cin).symm
  · exact congrArg wideResult (ofInt_add_add_carry _ _ cin).symm
  · contradiction

/-- The numbers of the formulas have one bit more than a word. -/
theorem arithFormula_bounds (op : ℕ) (mdata adata : Word) (cin : Bool) :
    -2 ^ 32 ≤ arithFormula op mdata adata cin ∧ arithFormula op mdata adata cin < 2 ^ 32 := by
  have hword (x : Word) : -2 ^ 31 ≤ x.toInt ∧ x.toInt < 2 ^ 31 := ⟨x.le_toInt, x.toInt_lt⟩
  have hm := hword mdata
  have ha := hword adata
  have hand := hword (mdata &&& adata)
  have handNot := hword (mdata &&& ~~~adata)
  have hor := hword (mdata ||| adata)
  have horNot := hword (mdata ||| ~~~adata)
  have hcarry : (if cin then 1 else 0 : ℤ) = 0 ∨ (if cin then 1 else 0 : ℤ) = 1 := by
    cases cin
    exacts [Or.inl rfl, Or.inr rfl]
  simp only [arithFormula]
  generalize (if cin then 1 else 0 : ℤ) = carry at *
  split
  all_goals omega

/-! ### The operations with a carry of their own -/

/-- The sum of `add32` and its carry. -/
theorem add32_exact (a b : Word) (cin : Bool) :
    IsLowWord (a.toInt + b.toInt + if cin then 1 else 0) (add32Out a b cin) ∧
      IsSign (a.toInt + b.toInt + if cin then 1 else 0) (add32Carry a b cin) := by
  have hnot : (~~~a).toInt = -a.toInt - 1 := by
    have ha := a.isLt
    rw [BitVec.toInt_not, Int.bmod_def, BitVec.toInt_eq_toNat_cond]
    split <;> split <;> omega
  have ha := toNat_eq_toInt_emod a
  have hb := toNat_eq_toInt_emod b
  constructor
  · cases cin
    · rw [if_neg Bool.false_ne_true, add_zero]
      exact toNat_add32Out a b
    · rw [if_pos rfl, IsLowWord, add32Out, if_pos rfl, BitVec.toNat_add, BitVec.toNat_add,
        show BitVec.toNat (1 : Word) = 1 from rfl]
      omega
  · cases cin
    · simp only [add32Carry, BitVec.slt_eq_decide, hnot, IsSign, Bool.false_eq_true, if_false,
        decide_eq_true_eq]
      split <;> split <;> first | rfl | omega
    · simp only [add32Carry, BitVec.sle_eq_decide, hnot, IsSign, if_true, decide_eq_true_eq]
      split <;> split <;> first | rfl | omega

/-- The difference of `sub32`. -/
theorem sub32Out_exact (a b : Word) (cin : Bool) :
    IsLowWord (a.toInt - b.toInt + (if cin then 1 else 0) - 1) (sub32Out a b cin) := by
  have ha := toNat_eq_toInt_emod a
  have hb := toNat_eq_toInt_emod b
  cases cin
  · rw [IsLowWord, sub32Out, if_neg Bool.false_ne_true, if_neg Bool.false_ne_true,
      BitVec.toNat_sub, BitVec.toNat_sub, show BitVec.toNat (1 : Word) = 1 from rfl]
    omega
  · rw [IsLowWord, sub32Out, if_pos rfl, if_pos rfl, BitVec.toNat_sub, BitVec.toNat_sub,
      show BitVec.toNat (0 : Word) = 0 from rfl]
    omega

/-- The unsigned comparison of `sub32` is the sign of the difference for operands of different
signs, except that nothing is borrowed where nothing is taken away. -/
def BorrowIsSign (a b : Word) (cin : Bool) : Prop :=
  if b = 0 ∧ cin then 0 ≤ a.toInt else a.toInt < 0 ↔ 0 ≤ b.toInt

/-- A comparison is the sign of a number when it agrees with it. -/
theorem isSign_ite {P : Prop} [Decidable P] : IsSign E (if P then 1 else 0) ↔ (P ↔ E < 0) := by
  rw [IsSign]
  by_cases hP : P <;> by_cases hE : E < 0 <;> simp [hP, hE]

/-- The carry of `sub32`. -/
theorem isSign_sub32Carry (a b : Word) (cin : Bool) :
    IsSign (a.toInt - b.toInt + (if cin then 1 else 0) - 1)
        (sub32Carry (sub32Out a b cin) a) ↔ BorrowIsSign a b cin := by
  have hout := sub32Out_exact a b cin
  have ha := a.isLt
  have hb := b.isLt
  have hzero : b = 0 ↔ b.toNat = 0 := BitVec.toNat_inj.symm
  rw [sub32Carry, isSign_ite, BorrowIsSign, BitVec.lt_def]
  simp only [hzero]
  rw [IsLowWord] at hout
  rw [BitVec.toInt_eq_toNat_cond, BitVec.toInt_eq_toNat_cond] at hout ⊢
  generalize (sub32Out a b cin).toNat = out at *
  cases cin
  · simp only [Bool.false_eq_true, and_false, if_false] at hout ⊢
    split_ifs at hout ⊢ <;> omega
  · simp only [and_true, if_true] at hout ⊢
    split_ifs at hout ⊢ <;> omega

/-- The carry of `M+1`. -/
theorem isSign_increment (mdata : Word) (cin : Bool) :
    IsSign (mdata.toInt + if cin then 1 else 0)
        (if mdata = 0xffffffff ∧ cin then 1 else 0) ↔ 0 ≤ mdata.toInt := by
  have hlt := mdata.isLt
  have hones : mdata = 0xffffffff ↔ mdata.toNat = 0xffffffff := BitVec.toNat_inj.symm
  rw [isSign_ite, hones, BitVec.toInt_eq_toNat_cond]
  cases cin
  · simp only [Bool.false_eq_true, and_false, if_false, false_iff]
    split <;> omega
  · simp only [and_true, if_true]
    split <;> omega

/-- The sum of `M+1`. -/
theorem increment_exact (mdata : Word) (cin : Bool) :
    IsLowWord (mdata.toInt + if cin then 1 else 0) (mdata + if cin then 1 else 0) := by
  have hm := toNat_eq_toInt_emod mdata
  cases cin
  · rw [IsLowWord, if_neg Bool.false_ne_true, if_neg Bool.false_ne_true, add_zero, add_zero]
    exact hm
  · rw [IsLowWord, if_pos rfl, if_pos rfl, BitVec.toNat_add,
      show BitVec.toNat (1 : Word) = 1 from rfl]
    omega

/-! ### All operations -/

/-- When the carry of an operation is the true sign: it always is but for the operation 020,
whose carry is always clear, the subtraction, and `M+1`. -/
def CarryIsSign (op : ℕ) (mdata adata : Word) (cin : Bool) : Prop :=
  match op with
  | 0o20 => cin = true
  | 0o26 => BorrowIsSign mdata adata cin
  | 0o34 => 0 ≤ mdata.toInt
  | _ => True

/-- The results of `arithOps`: the output is right, and the carry if the condition holds. -/
theorem arithOps_exact {op : Word} (hop : 0o20 ≤ op.toNat ∧ op.toNat ≤ 0o37)
    (mdata adata : Word) (cin : Bool) (aluOut aluCarry : Word) :
    IsLowWord (arithFormula op.toNat mdata adata cin)
        (arithOps op mdata adata cin aluOut aluCarry).1 ∧
      (IsSign (arithFormula op.toNat mdata adata cin)
        (arithOps op mdata adata cin aluOut aluCarry).2 ↔
          CarryIsSign op.toNat mdata adata cin) := by
  by_cases hwide : IsWide op.toNat
  · obtain ⟨hlo, hhi⟩ := arithFormula_bounds op.toNat mdata adata cin
    obtain ⟨hout, hsign⟩ := wideResult_ofInt (hlo.trans' (by decide)) hhi
    rw [arithOps_wide hwide]
    refine ⟨hout, iff_of_true hsign ?_⟩
    obtain ⟨hlow, -, h26, -, h34, -⟩ := hwide
    generalize op.toNat = n at *
    unfold CarryIsSign
    split
    all_goals first | contradiction | trivial
  · have hcases : op.toNat = 0o20 ∨ op.toNat = 0o26 ∨ op.toNat = 0o31 ∨ op.toNat = 0o34 ∨
        op.toNat = 0o37 := by
      unfold IsWide at hwide
      omega
    obtain h | h | h | h | h := hcases
    all_goals
      simp only [arithOps, h]
    · cases cin
      · have hclear : ¬IsSign (-1) 0 := by
          rw [IsSign]
          decide
        exact ⟨rfl, iff_of_false hclear Bool.false_ne_true⟩
      · exact ⟨rfl, iff_of_true rfl rfl⟩
    · exact ⟨sub32Out_exact mdata adata cin, isSign_sub32Carry mdata adata cin⟩
    · obtain ⟨hout, hsign⟩ := add32_exact mdata adata cin
      exact ⟨hout, iff_of_true hsign trivial⟩
    · exact ⟨increment_exact mdata cin, isSign_increment mdata cin⟩
    · obtain ⟨hout, hsign⟩ := add32_exact mdata mdata cin
      exact ⟨hout, iff_of_true hsign trivial⟩

/-- An arithmetic operation, in either carry in, gives the low word of its formula on the ALU
output, and the sign of the formula on the carry and on the output bus shifted right, if and
only if the condition holds. It does in both programs. -/
theorem arithmetic_exact (op : Word) (hop : 0o20 ≤ op.toNat ∧ op.toNat ≤ 0o37)
    (mdata adata : Word) (cin : Bool) (q aluOut oldQ out : Word) (p0 : BitVec 64)
    (hp0 : ((p0 >>> 12) &&& 3).toNat = 2) :
    (ExactArith (arithFormula op.toNat mdata adata cin)
        (aluResult op mdata adata cin q aluOut)
        (nextOut p0 mdata (aluResult op mdata adata cin q aluOut).1
          (aluResult op mdata adata cin q aluOut).2 oldQ) ↔
      CarryIsSign op.toNat mdata adata cin) ∧
    (ExactArith (arithFormula op.toNat mdata adata cin)
        (UCode.aluResult op mdata adata cin q aluOut)
        (UCode.nextOut p0 mdata (UCode.aluResult op mdata adata cin q aluOut).1
          (UCode.aluResult op mdata adata cin q aluOut).2 oldQ out) ↔
      CarryIsSign op.toNat mdata adata cin) := by
  have hresult : aluResult op mdata adata cin q aluOut = arithOps op mdata adata cin aluOut 0 := by
    have hlogi : ¬op ≤ 0o17 := fun h => absurd (hop.1.trans h) (by decide)
    have harith : op ≤ 0o37 := hop.2
    rw [aluResult, if_neg hlogi, if_pos harith]
  obtain ⟨hlo, hhi⟩ := arithFormula_bounds op.toNat mdata adata cin
  obtain ⟨hout, hsign⟩ := arithOps_exact hop mdata adata cin aluOut 0
  rw [UCode.aluResult_eq, UCode.nextOut_eq rfl, hresult]
  have hexact := (exactArith_iff hp0 hlo hhi hout mdata oldQ).trans hsign
  exact ⟨hexact, hexact⟩

/-- The operation `M+A` on the two most negative words. -/
theorem arithmetic_exact_overflow :
    ExactArith (-2 ^ 32) (aluResult 0o31 0x80000000 0x80000000 false 0 0)
      (nextOut 0x2000 0x80000000 (aluResult 0o31 0x80000000 0x80000000 false 0 0).1
        (aluResult 0o31 0x80000000 0x80000000 false 0 0).2 0) :=
  (arithmetic_exact 0o31 (by decide) 0x80000000 0x80000000 false 0 0 0 0 0x2000 (by decide)).1.mpr
    trivial

/-- The difference 5 - 3 is put out shifted right with a sign. -/
theorem not_arithmetic_exact :
    nextOut 0x2000 5 (aluResult 0o26 5 3 true 0 0).1 (aluResult 0o26 5 3 true 0 0).2 0 =
        0x80000001 ∧
      ¬ExactArith (arithFormula 0o26 5 3 true) (aluResult 0o26 5 3 true 0 0)
        (nextOut 0x2000 5 (aluResult 0o26 5 3 true 0 0).1 (aluResult 0o26 5 3 true 0 0).2 0) := by
  refine ⟨by decide, fun h => absurd h.shifted ?_⟩
  rw [IsLowWord]
  decide

end Usim
