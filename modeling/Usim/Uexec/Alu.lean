import Usim.Uexec.Registers

/-!
# The ALU instruction

The logical, arithmetic and conditional operations of `uexec.c`, the control
of the Q register and of the output bus, and the instruction `alu`.
-/

namespace Usim

open Lib

variable {β : Type} (port : VmPort β)

/-- The value that `qControl` leaves in Q. -/
def nextQ (p0 : BitVec 64) (aluOut q : Word) : Word :=
  match (ir p0 0 2).toNat with
  | 1 => (q <<< 1) ||| (if aluOut &&& 0x80000000 = 0 then 1 else 0)
  | 2 => (q >>> 1) ||| (if aluOut &&& 1 ≠ 0 then 0x80000000 else 0)
  | 3 => aluOut
  | _ => q

/-- `qControl`: shift or load the Q register. -/
def qControl : Micro β Unit :=
  modify fun (s : Engine β) => { s with oldQ := s.q, q := nextQ s.p0 s.aluOut s.q }

/-- The value that `outControl` puts on the output bus. -/
def nextOut (p0 : BitVec 64) (mdata aluOut aluCarry oldQ : Word) : Word :=
  match ((p0 >>> 12) &&& 3).toNat with
  | 0 => rol32 mdata (p0 &&& 0o37).toNat
  | 1 => aluOut
  | 2 => (aluOut >>> 1) ||| (if aluCarry ≠ 0 then 0x80000000 else 0)
  | _ => (aluOut <<< 1) ||| (if oldQ &&& 0x80000000 ≠ 0 then 1 else 0)

/-- `outControl`: select the output bus. -/
def outControl : Micro β Unit :=
  modify fun (s : Engine β) =>
    { s with out := nextOut s.p0 s.mdata s.aluOut s.aluCarry s.oldQ }

/-- The 64-bit sums of `arithOps`: the low word, and a carry that is 1 unless
the high half is zero. -/
def wideResult (lv : BitVec 64) : Word × Word :=
  (lv.setWidth 32, if lv.sshiftRight 32 ≠ 0 then 1 else 0)

/-- `arithOps`: the ALU output and carry of the arithmetic operations. The
other codes leave both. -/
def arithOps (op mdata adata : Word) (cin : Bool) (aluOut aluCarry : Word) : Word × Word :=
  let wide (x : Word) : BitVec 64 := x.signExtend 64
  let borrow : BitVec 64 := if cin then 0 else 1
  let carry : BitVec 64 := if cin then 1 else 0
  match op.toNat with
  | 0o20 => (if cin then 0 else -1, 0)
  | 0o21 => wideResult (wide (mdata &&& adata) - borrow)
  | 0o22 => wideResult (wide (mdata &&& ~~~adata) - borrow)
  | 0o23 => wideResult (wide mdata - borrow)
  | 0o24 => wideResult (wide (mdata ||| ~~~adata) + carry)
  | 0o25 => wideResult (wide (mdata ||| ~~~adata) + wide (mdata &&& adata) + carry)
  | 0o26 =>
    let out := sub32Out mdata adata cin
    (out, sub32Carry out mdata)
  | 0o27 => wideResult (wide (mdata ||| ~~~adata) + wide mdata + carry)
  | 0o30 => wideResult (wide (mdata ||| adata) + carry)
  | 0o31 => (add32Out mdata adata cin, add32Carry mdata adata cin)
  | 0o32 => wideResult (wide (mdata ||| adata) + wide (mdata &&& ~~~adata) + carry)
  | 0o33 => wideResult (wide (mdata ||| adata) + wide mdata + carry)
  | 0o34 => (mdata + (if cin then 1 else 0), if mdata = 0xffffffff ∧ cin then 1 else 0)
  | 0o35 => wideResult (wide mdata + wide (mdata &&& adata) + carry)
  | 0o36 => wideResult (wide mdata + wide (mdata ||| ~~~adata) + carry)
  | 0o37 => (add32Out mdata mdata cin, add32Carry mdata mdata cin)
  | _ => (aluOut, aluCarry)

/-- `logiOps`: the ALU output of the logical operations. -/
def logiOps (op mdata adata aluOut : Word) : Word :=
  match op.toNat with
  | 0o00 => 0
  | 0o01 => mdata &&& adata
  | 0o02 => mdata &&& ~~~adata
  | 0o03 => mdata
  | 0o04 => ~~~mdata &&& adata
  | 0o05 => adata
  | 0o06 => mdata ^^^ adata
  | 0o07 => mdata ||| adata
  | 0o10 => ~~~adata &&& ~~~mdata
  | 0o11 => if adata = mdata then 1 else 0
  | 0o12 => ~~~adata
  | 0o13 => mdata ||| ~~~adata
  | 0o14 => ~~~mdata
  | 0o15 => ~~~mdata ||| adata
  | 0o16 => ~~~mdata ||| ~~~adata
  | 0o17 => ~~~0#32
  | _ => aluOut

/-- `divOps`: the ALU output and carry of the multiply and divide steps. The
remainder correction adds to the output of the previous instruction, and its
carry reads the sum just written. -/
def divOps (op mdata adata : Word) (cin : Bool) (q aluOut aluCarry : Word) : Word × Word :=
  match op.toNat with
  | 0o40 =>
    if q &&& 1 ≠ 0 then (add32Out adata mdata cin, add32Carry adata mdata cin)
    else (mdata, if mdata &&& 0x80000000 ≠ 0 then 1 else 0)
  | 0o41 =>
    if q &&& 1 ≠ 0 then
      let out := sub32Out mdata (abs32 adata) !cin
      (out, sub32Carry out mdata)
    else (add32Out mdata (abs32 adata) cin, add32Carry mdata (abs32 adata) cin)
  | 0o45 =>
    if q &&& 1 ≠ 0 then (aluOut, 0)
    else
      let out := add32Out aluOut (abs32 adata) cin
      (out, add32Carry out (abs32 adata) cin)
  | 0o51 =>
    let out := sub32Out mdata (abs32 adata) !cin
    (out, sub32Carry out mdata)
  | _ => (aluOut, aluCarry)

/-- The ALU output and carry that the operation part of `alu` computes. An
unassigned code leaves the output and clears the carry. -/
def aluResult (aluop mdata adata : Word) (cin : Bool) (q aluOut : Word) : Word × Word :=
  if aluop ≤ 0o17 then (logiOps aluop mdata adata aluOut, 0)
  else if aluop ≤ 0o37 then arithOps aluop mdata adata cin aluOut 0
  else divOps aluop mdata adata cin q aluOut 0

/-- The operation part of `alu`. -/
def aluOp : Micro β Unit :=
  modify fun (s : Engine β) =>
    let r := aluResult (ir s.p0 3 6) s.mdata s.adata (ir s.p0 2 1 ≠ 0) s.q s.aluOut
    { s with aluOut := r.1, aluCarry := r.2 }

/-- `alu`. -/
def alu : Micro β Unit := do
  let s ← get
  let dest := ir s.p0 14 12
  aluOp
  qControl
  outControl
  writeDest port dest

end Usim
