import Usim.Lib.StepArithmetic
import Usim.MachineControl
import Usim.Uexec.Issue

/-!
# The divide steps

The ALU operations 051, 041 and 045 are the first step, the repeated step and
the remainder correction of a non-restoring division. The M operand holds the
shifted partial remainder and Q the dividend above the quotient digits.
-/

namespace Usim

open Lib

variable {β : Type} {port : VmPort β} {a : Fin 1024} {m : Fin 32} {w : BitVec 64}

/-- The ALU output of the first divide step. -/
theorem aluResult_divideFirst (x : Operands) :
    (aluResult 0o51 x.m x.a false x.q x.aluOut).1 = sub32Out x.m (abs32 x.a) true := rfl

/-- The ALU output of a divide step. -/
theorem aluResult_divide (x : Operands) :
    (aluResult 0o41 x.m x.a false x.q x.aluOut).1 =
      if x.q &&& 1 ≠ 0 then sub32Out x.m (abs32 x.a) true
      else add32Out x.m (abs32 x.a) false := by
  change (if x.q &&& 1 ≠ 0 then _ else _ : Word × Word).1 = _
  split <;> rfl

/-- The ALU output of the remainder correction, which adds to the last output. -/
theorem aluResult_correct (x : Operands) :
    (aluResult 0o45 x.m x.a false x.q x.aluOut).1 =
      if x.q &&& 1 ≠ 0 then x.aluOut else add32Out x.aluOut (abs32 x.a) false := by
  change (if x.q &&& 1 ≠ 0 then _ else _ : Word × Word).1 = _
  split <;> rfl

/-- A division of `n` by a divisor of magnitude `d`, after the first step and
`k` repeated steps, the last of which left the partial remainder `r`. -/
structure Dividing (d n k : ℕ) (r : ℤ) (x : Operands) : Prop where
  /-- The A operand is the divisor. -/
  divisor : (abs32 x.a).toNat = d
  /-- The partial remainder of the dividend bits read so far. -/
  remainder : PartialRemainder d (n / 2 ^ (32 - k)) r
  /-- The ALU has just put out the partial remainder. -/
  aluOut : x.aluOut.toInt = r
  /-- Q holds the other dividend bits and the quotient digits. -/
  q : x.q.toNat = dividendQuotient 32 n d k

/-- The M operand holds the partial remainder with the next dividend bit
shifted in, while dividend bits remain. -/
def ShiftedRemainder (n k : ℕ) (r : ℤ) (x : Operands) : Prop :=
  (x.m.toNat : ℤ) = (2 * r + (n / 2 ^ (32 - (k + 1)) % 2 : ℕ)) % 2 ^ 32

variable {d n k : ℕ} {r : ℤ}

/-- Shifting Q left shifts in the new quotient digit. -/
theorem nextQ_divide (hq : (ir w 0 2).toNat = 1) (aluOut q : Word) :
    (nextQ w aluOut q).toNat = 2 * q.toNat % 2 ^ 32 + if aluOut.toInt < 0 then 0 else 1 := by
  have hsign := (and_sign_ne_zero (x := aluOut)).trans toInt_neg_iff.symm
  simp only [nextQ, hq, toNat_shiftLeft_in]
  by_cases h : aluOut.toInt < 0
  · rw [if_neg (hsign.mpr h), if_pos h]
  · rw [if_pos (not_not.mp (mt hsign.mp h)), if_neg h]

/-- Shifting the ALU output left shifts in the top bit of the old Q. -/
theorem nextOut_divide (hout : ((w >>> 12) &&& 3).toNat = 3) (mdata aluOut carry q : Word) :
    (nextOut w mdata aluOut carry q).toNat = 2 * aluOut.toNat % 2 ^ 32 + q.toNat / 2 ^ 31 := by
  have hq := q.isLt
  simp only [nextOut, hout, toNat_shiftLeft_in, and_sign_ne_zero]
  split <;> omega

/-- The magnitude of a divisor is at most 2^31. -/
theorem divisor_le {x : Operands} (hdivisor : (abs32 x.a).toNat = d) : d ≤ 2 ^ 31 := by
  have hlt := x.a.toInt_lt
  have hle := x.a.le_toInt
  rw [toNat_abs32] at hdivisor
  omega

/-- The first step starts a division. -/
theorem Operands.next_divideFirst (h : AluWriteBack a m 0o51 3 1 w) (x : Operands) (hd : 0 < d)
    (hm : x.m = 0) (hdivisor : (abs32 x.a).toNat = d) :
    Dividing d x.q.toNat 0 (-d) (x.next w) ∧ ShiftedRemainder x.q.toNat 0 (-d) (x.next w) := by
  have hle := divisor_le hdivisor
  have hq := x.q.isLt
  have haluop : ir w 3 6 = 0o51 := BitVec.eq_of_toNat_eq h.aluop
  have hout : (x.next w).aluOut = sub32Out x.m (abs32 x.a) true := by
    simp only [next, haluop, h.carryIn, ne_eq, not_true_eq_false, decide_false,
      aluResult_divideFirst]
  have hnat : ((x.next w).aluOut.toNat : ℤ) = -d % 2 ^ 32 := by
    rw [hout, toNat_sub32Out, hdivisor, hm]
    simp
  have hint : (x.next w).aluOut.toInt = -d := toInt_eq_of_emod hnat (by omega) (by omega)
  have hzero : x.q.toNat / 2 ^ (32 - 0) = 0 := Nat.div_eq_of_lt hq
  refine ⟨⟨hdivisor, ?_, hint, ?_⟩, ?_⟩
  · rw [hzero]
    exact PartialRemainder.zero hd
  · have hnext := nextQ_divide h.qSelect (x.next w).aluOut x.q
    rw [hint, if_pos (by omega)] at hnext
    refine hnext.trans ?_
    rw [dividendQuotient, hzero, Nat.zero_div]
    omega
  · have hnext := nextOut_divide h.outSelect x.m (x.next w).aluOut
      (aluResult (ir w 3 6) x.m x.a (ir w 2 1 ≠ 0) x.q x.aluOut).2 x.q
    have hm' : (x.next w).m.toNat = 2 * (x.next w).aluOut.toNat % 2 ^ 32 + x.q.toNat / 2 ^ 31 :=
      hnext
    rw [ShiftedRemainder, hm']
    omega

/-- The low bit of Q, the last quotient digit, tells the sign of the partial remainder. -/
theorem Dividing.q_odd {x : Operands} (hx : Dividing d n k r x) : x.q &&& 1 ≠ 0 ↔ ¬ r < 0 := by
  rw [and_one_ne_zero, hx.q, dividendQuotient_mod_two, hx.remainder.digit]
  split <;> simp_all

/-- A divide step forms the next partial remainder. -/
theorem Dividing.next_aluOut {outSelect : ℕ} (h : AluWriteBack a m 0o41 outSelect 1 w)
    {x : Operands} (hd : 0 < d) (hx : Dividing d n k r x) (hm : ShiftedRemainder n k r x) :
    (x.next w).aluOut.toInt = nextRemainder d (n / 2 ^ (32 - (k + 1)) % 2) r := by
  have hle := divisor_le hx.divisor
  have hbounds := ((hx.remainder.step hd (Nat.mod_lt (n / 2 ^ (32 - (k + 1)))
    two_pos)).1).bounds hd
  have haluop : ir w 3 6 = 0o41 := BitVec.eq_of_toNat_eq h.aluop
  have hout : (x.next w).aluOut =
      if x.q &&& 1 ≠ 0 then sub32Out x.m (abs32 x.a) true
      else add32Out x.m (abs32 x.a) false := by
    rw [← aluResult_divide]
    simp only [Operands.next, haluop, h.carryIn, ne_eq, not_true_eq_false, decide_false]
  refine toInt_eq_of_emod ?_ (by omega) (by omega)
  have hodd := hx.q_odd
  unfold ShiftedRemainder at hm
  unfold nextRemainder
  by_cases hr : r < 0
  · have hmi := toNat_eq_toInt_emod x.m
    have hai := toNat_eq_toInt_emod (abs32 x.a)
    have hdivisor := hx.divisor
    rw [hout, if_neg (fun hq => hodd.mp hq hr), toNat_add32Out, if_pos hr]
    omega
  · rw [hout, if_pos (hodd.mpr hr), toNat_sub32Out, hx.divisor, if_neg hr]
    omega

/-- A divide step produces the next quotient digit. -/
theorem Dividing.next {outSelect : ℕ} (h : AluWriteBack a m 0o41 outSelect 1 w)
    {x : Operands} (hd : 0 < d) (hn : n < 2 ^ 32) (hx : Dividing d n k r x)
    (hm : ShiftedRemainder n k r x) (hk : k < 32) :
    Dividing d n (k + 1) (nextRemainder d (n / 2 ^ (32 - (k + 1)) % 2) r) (x.next w) := by
  have hint := hx.next_aluOut h hd hm
  obtain ⟨hrem, hquot⟩ := hx.remainder.step hd (Nat.mod_lt (n / 2 ^ (32 - (k + 1))) two_pos)
  rw [← div_pow_succ_bit n hk] at hrem hquot
  refine ⟨hx.divisor, hrem, hint, ?_⟩
  have hnext := nextQ_divide h.qSelect (x.next w).aluOut x.q
  rw [hint, hx.q, ← dividendQuotient_succ hn hk hquot] at hnext
  exact hnext

/-- A divide step that shifts its output prepares the next one. -/
theorem Dividing.next_shifted (h : AluWriteBack a m 0o41 3 1 w)
    {x : Operands} (hd : 0 < d) (hn : n < 2 ^ 32) (hx : Dividing d n k r x)
    (hm : ShiftedRemainder n k r x) (hk : k + 1 < 32) :
    ShiftedRemainder n (k + 1) (nextRemainder d (n / 2 ^ (32 - (k + 1)) % 2) r) (x.next w) := by
  have hint := hx.next_aluOut h hd hm
  have hnat := toNat_eq_toInt_emod (x.next w).aluOut
  have hnext := nextOut_divide h.outSelect x.m (x.next w).aluOut
    (aluResult (ir w 3 6) x.m x.a (ir w 2 1 ≠ 0) x.q x.aluOut).2 x.q
  have hm' : (x.next w).m.toNat = 2 * (x.next w).aluOut.toNat % 2 ^ 32 + x.q.toNat / 2 ^ 31 :=
    hnext
  rw [hx.q, dividendQuotient_top hn hk, show k + 2 = k + 1 + 1 from rfl] at hm'
  rw [hint] at hnat
  rw [ShiftedRemainder, hm']
  omega

/-- The correction adds the divisor to a negative partial remainder, and leaves Q. -/
theorem Dividing.correct (h : AluWriteBack a m 0o45 1 0 w) {x : Operands} (hd : 0 < d)
    (hx : Dividing d n 32 r x) :
    (x.next w).q.toNat = n / d ∧ (x.next w).m.toNat = n % d := by
  have hle := divisor_le hx.divisor
  have haluop : ir w 3 6 = 0o45 := BitVec.eq_of_toNat_eq h.aluop
  have hout : (x.next w).m =
      if x.q &&& 1 ≠ 0 then x.aluOut else add32Out x.aluOut (abs32 x.a) false := by
    rw [← aluResult_correct]
    simp only [Operands.next, haluop, h.carryIn, nextOut, h.outSelect, ne_eq, not_true_eq_false,
      decide_false]
  have hq : (x.next w).q = x.q := by
    simp only [Operands.next, nextQ, h.qSelect]
  have hvalue := hx.remainder.value
  have hbounds := hx.remainder.bounds hd
  have haluOut := toNat_eq_toInt_emod x.aluOut
  have hodd := hx.q_odd
  rw [hx.aluOut] at haluOut
  simp only [Nat.sub_self, pow_zero, Nat.div_one] at hvalue
  refine ⟨by rw [hq, hx.q, dividendQuotient_width], ?_⟩
  by_cases hr : r < 0
  · have hai := toNat_eq_toInt_emod (abs32 x.a)
    have hdivisor := hx.divisor
    have hsum := toNat_add32Out x.aluOut (abs32 x.a)
    rw [if_pos hr] at hvalue
    rw [hout, if_neg (fun hq => hodd.mp hq hr)]
    rw [hx.aluOut] at hsum
    omega
  · rw [if_neg hr] at hvalue
    rw [hout, if_pos (hodd.mpr hr)]
    omega

/-- The division sequence: operation 051, 31 times operation 041 with the
output shifted left, operation 041 with the output unshifted, and operation
045 with Q unchanged. From a state in which the M operand is 0 it leaves the
quotient of Q by the magnitude of the A operand in Q, and the remainder in the
M operand. -/
theorem divide_steps (port : VmPort β) (a : Fin 1024) (m : Fin 32)
    (first last correction : BitVec 64) (ws : List (BitVec 64))
    (hfirst : AluWriteBack a m 0o51 3 1 first)
    (hws : ∀ w ∈ ws, AluWriteBack a m 0o41 3 1 w) (hlength : ws.length = 31)
    (hlast : AluWriteBack a m 0o41 1 1 last)
    (hcorrection : AluWriteBack a m 0o45 1 0 correction)
    (s : Engine β) (hm : s.mmem m = 0) (hdivisor : s.amem a ≠ 0) :
    Post (issueAll port (first :: ws ++ [last, correction])) s
      (fun _ t => t.q.toNat = s.q.toNat / (s.amem a).toInt.natAbs ∧
        (t.mmem m).toNat = s.q.toNat % (s.amem a).toInt.natAbs)
      (fun _ _ => False) := by
  set x := s.operands a m with hx
  set d := x.a.toInt.natAbs with hd
  have hdpos : 0 < d := by
    rw [hd, Int.natAbs_pos]
    exact fun h => hdivisor (BitVec.toInt_inj.mp (h.trans BitVec.toInt_zero.symm))
  have hn := x.q.isLt
  rw [List.cons_append, issueAll, issueAll_append]
  refine (post_issue hfirst s).bind fun _ t₀ h₀ => ?_
  have hstart := Operands.next_divideFirst hfirst x hdpos hm (toNat_abs32 x.a)
  rw [← hx] at h₀
  rw [← h₀] at hstart
  have hrun : Post (issueAll port ws) t₀
      (fun _ t => ∃ r, Dividing d x.q.toNat 31 r (t.operands a m) ∧
        ShiftedRemainder x.q.toNat 31 r (t.operands a m)) (fun _ _ => False) := by
    have hloop := post_issueAll port (k := 0)
      (I := fun k y => ∃ r, Dividing d x.q.toNat k r y ∧ ShiftedRemainder x.q.toNat k r y) hws
      ?_ ⟨_, hstart⟩
    · rwa [zero_add, hlength] at hloop
    · rintro w i y hw hi ⟨r, hy, hm⟩
      exact ⟨_, hy.next hw hdpos hn hm (by omega), hy.next_shifted hw hdpos hn hm (by omega)⟩
  refine hrun.bind fun _ t₁ hrun₁ => ?_
  obtain ⟨r, hr, hm₁⟩ := hrun₁
  refine (post_issue hlast t₁).bind fun _ t₂ h₂ => ?_
  have hdone := hr.next hlast hdpos hn hm₁ (by decide)
  rw [← h₂] at hdone
  refine (post_issue hcorrection t₂).bind fun _ t₃ h₃ => ?_
  have hcorrect := hdone.correct hcorrection hdpos
  rw [← h₃] at hcorrect
  exact post_pure () |>.mpr hcorrect

/-- The division sequence started with 22 in Q and -5 in every A memory location. -/
theorem divide_steps_twenty_two_neg_five :
    Post (issueAll noBus (aluWriteBack 40 1 0o51 3 1 ::
        List.replicate 31 (aluWriteBack 40 1 0o41 3 1) ++
          [aluWriteBack 40 1 0o41 1 1, aluWriteBack 40 1 0o45 1 0]))
      { powerOn (fun _ => 0) (fun _ => 0) () with q := 22, amem := fun _ => -5 }
      (fun _ t => t.q.toNat = 4 ∧ (t.mmem 1).toNat = 2) (fun _ _ => False) := by
  have hw {aluop outSelect qSelect : ℕ} (hop : aluop < 64) (hout : outSelect < 4)
      (hq : qSelect < 4) := aluWriteBack_fields (a := 40) (m := 1) hop hout hq (by decide)
  refine (divide_steps noBus 40 1 _ _ _ _ (hw (by decide) (by decide) (by decide))
    (fun w hmem => ?_) (by decide) (hw (by decide) (by decide) (by decide))
    (hw (by decide) (by decide) (by decide)) _ rfl (by decide)).mono ?_ (fun _ _ h => h)
  · rw [List.eq_of_mem_replicate hmem]
    exact hw (by decide) (by decide) (by decide)
  · intro _ t ht
    exact ht

end Usim
