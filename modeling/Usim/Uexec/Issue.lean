import Usim.Uexec.Step

/-!
# Microinstructions issued one after another

The multiply and divide sequences are runs of ALU instructions that keep one
operand in the A memory and write each result back to the location of the
other in the M memory. Their effect is stated here for one instruction, from
the decoding of its operands to its destination.
-/

namespace Usim

open Lib

variable {β : Type} (port : VmPort β)

/-- Execute `w` as the fetched microinstruction, up to its POPJ. -/
def issue (w : BitVec 64) : Micro β Unit := do
  modify fun s => { s with p0 := w }
  decode
  operate port

/-- Execute microinstructions one after another. -/
def issueAll : List (BitVec 64) → Micro β Unit
  | [] => pure ()
  | w :: ws => do
    issue port w
    issueAll ws

/-- Running one list of microinstructions after another runs their concatenation. -/
theorem issueAll_append (ws vs : List (BitVec 64)) :
    issueAll port (ws ++ vs) = (do issueAll port ws; issueAll port vs) := by
  induction ws with
  | nil => rfl
  | cons w ws ih => simp only [List.cons_append, issueAll, ih, bind_assoc]

/-- The word `w` is an ALU instruction with carry-in 0 whose operands are A
memory `a` and M memory `m`, and whose destination is M memory `m` alone. -/
structure AluWriteBack (a : Fin 1024) (m : Fin 32) (aluop outSelect qSelect : ℕ)
    (w : BitVec 64) : Prop where
  /-- `IR<44:43>`: the ALU opcode. -/
  opcode : ir w 43 2 = 0
  /-- `IR<8:3>`: the operation. -/
  aluop : (ir w 3 6).toNat = aluop
  /-- `IR<2>`: the carry into the ALU. -/
  carryIn : ir w 2 1 = 0
  /-- `IR<13:12>`: the output bus. -/
  outSelect : ((w >>> 12) &&& 3).toNat = outSelect
  /-- `IR<1:0>`: the Q control. -/
  qSelect : (ir w 0 2).toNat = qSelect
  /-- `IR<41:32>`: the A source. -/
  aSource : (ir w 32 10).toNat = a
  /-- `IR<31>`: the M source is a memory location. -/
  mMemory : ir w 31 1 = 0
  /-- `IR<30:26>`: the M source. -/
  mSource : (ir w 26 5).toNat = m
  /-- `IR<25:14>`: no functional destination, and the M memory address. -/
  dest : (ir w 14 12).toNat = m
  /-- The write does not change the A operand: functional destinations also
  write the copy of the M memory in the A memory. -/
  distinct : a.val ≠ m.val

/-- The ALU instruction with these fields, and all others zero. -/
def aluWriteBack (a : Fin 1024) (m : Fin 32) (aluop outSelect qSelect : ℕ) : BitVec 64 :=
  BitVec.ofNat 64 (qSelect + aluop * 2 ^ 3 + outSelect * 2 ^ 12 + m * 2 ^ 14 + m * 2 ^ 26 +
    a * 2 ^ 32)

/-- The assembled instruction has the fields it was assembled from. -/
theorem aluWriteBack_fields {a : Fin 1024} {m : Fin 32} {aluop outSelect qSelect : ℕ}
    (hop : aluop < 64) (hout : outSelect < 4) (hq : qSelect < 4) (hdistinct : a.val ≠ m.val) :
    AluWriteBack a m aluop outSelect qSelect (aluWriteBack a m aluop outSelect qSelect) := by
  have ha := a.isLt
  have hm := m.isLt
  have hnat : (aluWriteBack a m aluop outSelect qSelect).toNat =
      qSelect + aluop * 2 ^ 3 + outSelect * 2 ^ 12 + m * 2 ^ 14 + m * 2 ^ 26 + a * 2 ^ 32 := by
    rw [aluWriteBack, BitVec.toNat_ofNat]
    exact Nat.mod_eq_of_lt (by omega)
  have h26 : (aluWriteBack a m aluop outSelect qSelect).toNat / 2 ^ 26 = m + 64 * a := by omega
  have h31 : (aluWriteBack a m aluop outSelect qSelect).toNat / 2 ^ 31 = 2 * a := by omega
  have h32 : (aluWriteBack a m aluop outSelect qSelect).toNat / 2 ^ 32 = a := by omega
  have h43 : (aluWriteBack a m aluop outSelect qSelect).toNat / 2 ^ 43 = 0 := by omega
  have hzero (pos len : ℕ) (hlen : len < 32)
      (h : (aluWriteBack a m aluop outSelect qSelect).toNat / 2 ^ pos % 2 ^ len = 0) :
      ir (aluWriteBack a m aluop outSelect qSelect) pos len = 0 :=
    BitVec.eq_of_toNat_eq ((ir_toNat _ _ hlen).trans h)
  constructor
  case outSelect =>
    rw [BitVec.toNat_and, BitVec.toNat_ushiftRight, Nat.shiftRight_eq_div_pow,
      show BitVec.toNat (3 : BitVec 64) = 2 ^ 2 - 1 from rfl, Nat.and_two_pow_sub_one_eq_mod]
    omega
  case distinct => exact hdistinct
  case opcode | carryIn | mMemory =>
    refine hzero _ _ (by decide) ?_
    omega
  all_goals
    rw [ir_toNat _ _ (by decide)]
    omega

/-- The four values that a multiply or divide sequence works on. -/
structure Operands where
  /-- The A operand. -/
  a : Word
  /-- The M operand. -/
  m : Word
  /-- The Q register. -/
  q : Word
  /-- The ALU output of the last instruction. -/
  aluOut : Word

/-- The operands in a state of the machine. -/
def Engine.operands (a : Fin 1024) (m : Fin 32) (s : Engine β) : Operands :=
  ⟨s.amem a, s.mmem m, s.q, s.aluOut⟩

/-- The operands after the ALU instruction `w` that writes back. -/
def Operands.next (w : BitVec 64) (x : Operands) : Operands :=
  let r := aluResult (ir w 3 6) x.m x.a (ir w 2 1 ≠ 0) x.q x.aluOut
  ⟨x.a, nextOut w x.m r.1 r.2 x.q, nextQ w r.1 x.q, r.1⟩

variable {port} {a : Fin 1024} {m : Fin 32} {aluop outSelect qSelect : ℕ} {w : BitVec 64}

/-- A destination that is only an M memory address writes that location and its
copy in the A memory. -/
theorem post_writeDest_memory {dest : Word} (hdest : dest.toNat = m) {s : Engine β}
    {Q : Unit → Engine β → Prop} {E : Fault → Engine β → Prop} :
    Post (writeDest port dest) s Q E ↔
      Q () { s with
        amem := Function.update s.amem (m.castLE (by decide)) s.out
        mmem := Function.update s.mmem m s.out } := by
  have hm := m.isLt
  have hlow : (dest &&& 0o37).toNat = m := by
    rw [BitVec.toNat_and, hdest]
    exact Nat.and_two_pow_sub_one_of_lt_two_pow (n := 5) hm
  have hamem : dest &&& 0o4000 = 0 := by
    apply BitVec.eq_of_toNat_eq
    rw [BitVec.toNat_and, hdest]
    revert hm
    generalize m.val = k
    revert k
    decide
  have hfun : (dest >>> 5).toNat = 0 := by
    rw [BitVec.toNat_ushiftRight, hdest, Nat.shiftRight_eq_div_pow]
    exact Nat.div_eq_of_lt hm
  have hmf (data : Word) : mfwrite port dest data = get >>= fun _ => pure () := by
    simp only [mfwrite, hfun]
  have hA : (dest &&& 0o37).toNat = m.castLE (by decide : 32 ≤ 1024) := hlow
  simp only [writeDest, hamem, ne_eq, not_true_eq_false, if_false, hmf, post_bind, post_get,
    post_pure, post_modify, assign_fin hA, assign_fin hlow, fromExcept_ok]

/-- Decoding an ALU instruction that writes back reads its two operands. -/
theorem post_decode_memory (h : AluWriteBack a m aluop outSelect qSelect w) {s : Engine β}
    (hw : s.p0 = w) {Q : Unit → Engine β → Prop} {E : Fault → Engine β → Prop} :
    Post decode s Q E ↔ Q () { s with
      op := 0
      popj := ir w 42 1 = 1
      aaddr := ir w 32 10
      maddr := ir w 26 5
      mdata := s.mmem m
      adata := s.amem a
      iwr := ((s.amem a &&& 0o177777).setWidth 64 <<< 32) ||| (s.mmem m).setWidth 64 } := by
  subst hw
  simp only [decode, post_bind, post_get, post_pure, post_modify, h.opcode, h.mMemory, if_true,
    subscript_fin h.mSource, subscript_fin h.aSource, fromExcept_ok]

/-- The opcode 0 selects the ALU. -/
theorem post_operate_alu {s : Engine β} (hop : s.op = 0) {Q : Unit → Engine β → Prop}
    {E : Fault → Engine β → Prop} : Post (operate port) s Q E ↔ Post (alu port) s Q E := by
  unfold operate
  rw [post_bind, post_get, hop]
  rfl

/-- Issuing an ALU instruction that writes back returns, and computes the next operands. -/
theorem post_issue (h : AluWriteBack a m aluop outSelect qSelect w) (s : Engine β) :
    Post (issue port w) s (fun _ t => t.operands a m = (s.operands a m).next w)
      (fun _ _ => False) := by
  have ha : a ≠ m.castLE (by decide) := fun h' => h.distinct (congrArg Fin.val h')
  unfold issue
  rw [post_bind, post_modify, post_bind, post_decode_memory h rfl, post_operate_alu rfl]
  simp only [alu, aluOp, qControl, outControl, post_bind, post_modify, post_get,
    post_writeDest_memory h.dest, Engine.operands, Operands.next, Function.update_self,
    Function.update_of_ne ha]

/-- Issuing ALU instructions of one kind: what each of them keeps, counting them,
holds after all of them. -/
theorem post_issueAll (port : VmPort β) {I : ℕ → Operands → Prop} {ws : List (BitVec 64)} {k : ℕ}
    (hws : ∀ w ∈ ws, AluWriteBack a m aluop outSelect qSelect w)
    (hstep : ∀ w i x, AluWriteBack a m aluop outSelect qSelect w → i < k + ws.length →
      I i x → I (i + 1) (x.next w))
    {s : Engine β} (hs : I k (s.operands a m)) :
    Post (issueAll port ws) s (fun _ t => I (k + ws.length) (t.operands a m))
      (fun _ _ => False) := by
  induction ws generalizing k s with
  | nil => simpa [issueAll] using hs
  | cons w ws ih =>
    have hw := hws w List.mem_cons_self
    have hlength : k + 1 + ws.length = k + (w :: ws).length := by
      rw [List.length_cons]
      omega
    refine (post_issue hw s).bind fun _ t ht => ?_
    rw [← hlength]
    refine ih (fun v hv => hws v (List.mem_cons_of_mem w hv)) ?_ ?_
    · intro v i x hv hi
      exact hstep v i x hv (by omega)
    · rw [ht]
      exact hstep w k _ hw (by omega) hs

end Usim
