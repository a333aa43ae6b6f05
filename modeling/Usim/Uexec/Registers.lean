import Usim.Uvmem

/-!
# Registers of the micro engine

The micro stack, the location counter, and the functional sources and
destinations of `uexec.c`.
-/

namespace Usim

open Lib

variable {β : Type} (port : VmPort β)

/-- `ir`: the field of `len` bits of `p0` at bit `pos`. -/
def ir (p0 : BitVec 64) (pos len : ℕ) : Word :=
  ((p0 >>> pos) &&& ((1#64 <<< len) - 1)).setWidth 32

/-- A field of the microinstruction as a number. -/
theorem ir_toNat (p0 : BitVec 64) (pos : ℕ) {len : ℕ} (hlen : len < 32) :
    (ir p0 pos len).toNat = p0.toNat / 2 ^ pos % 2 ^ len := by
  have hpow : 2 ^ len < 2 ^ 32 := Nat.pow_lt_pow_right (by decide) hlen
  have hmask : ((1#64 <<< len) - 1).toNat = 2 ^ len - 1 := by
    have hpos : 0 < 2 ^ len := Nat.two_pow_pos len
    rw [BitVec.toNat_sub, BitVec.toNat_shiftLeft, Nat.shiftLeft_eq,
      show BitVec.toNat 1#64 = 1 from rfl, one_mul,
      show BitVec.toNat (1 : BitVec 64) = 1 from rfl,
      Nat.mod_eq_of_lt (by omega : 2 ^ len < 2 ^ 64)]
    omega
  have hlt : p0.toNat / 2 ^ pos % 2 ^ len < 2 ^ len := Nat.mod_lt _ (Nat.two_pow_pos _)
  rw [ir, BitVec.toNat_setWidth, BitVec.toNat_and, hmask, Nat.and_two_pow_sub_one_eq_mod,
    BitVec.toNat_ushiftRight, Nat.shiftRight_eq_div_pow]
  exact Nat.mod_eq_of_lt (hlt.trans hpow)

/-- A field of `len` bits is below `2 ^ len`. -/
theorem ir_lt (p0 : BitVec 64) (pos : ℕ) {len : ℕ} (hlen : len < 32) :
    (ir p0 pos len).toNat < 2 ^ len := by
  rw [ir_toNat p0 pos hlen]
  exact Nat.mod_lt _ (Nat.two_pow_pos _)

/-- One virtual memory cycle of the processor. -/
def vmCycle (write : Bool) (vaddr v : Word) : Micro β Word := do
  let s ← get
  let (v, b) ← fromExcept (port.vm write vaddr v s.toMaps s.toBusState)
  modify fun s => { s with toBusState := b }
  return v

/-- `vmRead`. -/
def vmRead (vaddr : Word) : Micro β Word := vmCycle port false vaddr 0

/-- `vmWrite`. -/
def vmWrite (vaddr v : Word) : Micro β Unit := do
  let _ ← vmCycle port true vaddr v

/-- The memory read that a microinstruction starts: the word arrives in MD two cycles later. -/
def startRead (vaddr : Word) : Micro β Unit := do
  observe (.read vaddr)
  let v ← vmRead port vaddr
  modify fun s => { s with newMd := v, newMdDelay := 2 }

/-- `pushSPC`. -/
def pushSPC (pc : Word) : Micro β Unit := do
  modify fun s => { s with spcptr := (s.spcptr + 1) &&& 0o37 }
  let s ← get
  let spc ← fromExcept (assign .spc s.spc s.spcptr pc)
  modify fun s => { s with spc := spc }
  observe (.push pc)

/-- `popSPC`. -/
def popSPC : Micro β Word := do
  let s ← get
  let v ← fromExcept (subscript .spc s.spc s.spcptr)
  modify fun s => { s with spcptr := (s.spcptr - 1) &&& 0o37 }
  observe (.pop v)
  return v

/-- `lcbytemode`: the rotation that the location counter selects. -/
def lcbytemode (p0 : BitVec 64) (lc interruptControl : Word) : Word :=
  let ir4 := ((p0 >>> 4) &&& 1).setWidth 32
  let lc1 := (lc >>> 1) &&& 1
  if interruptControl.getLsbD 29 then
    let ir3 := ((p0 >>> 3) &&& 1).setWidth 32
    let lc0 := (lc >>> 0) &&& 1
    (p0 &&& 0o07).setWidth 32 ||| (((ir4 ^^^ (lc1 ^^^ lc0)) <<< 4) ||| ((ir3 ^^^ lc0) <<< 3))
  else
    (p0 &&& 0o17).setWidth 32 ||| ((if ir4 ^^^ lc1 ≠ 0 then 0#32 else 1#32) <<< 4)

/-- The bus cycle of `record_lc_history`, which reads the word the location
counter points at and restores `vmaok`. The recorded history itself is only
printed. -/
def recordLcHistory : Micro β Unit := do
  let s ← get
  let opff := s.vmaok
  let _ ← vmRead port (s.lc >>> 2)
  modify fun s => { s with vmaok := opff }

/-- `advanceLC`: advance the location counter and read the next instruction
word if needed. -/
def advanceLC (ppc : Word) : Micro β Word := do
  let s ← get
  observe (.advance s.lc s.interruptControl)
  recordLcHistory port
  let oldLc := s.lc &&& 0o377777777
  modify fun s =>
    { s with lc := if s.interruptControl.getLsbD 29 then s.lc + 1 else s.lc + 2 }
  let s ← get
  let ppc ← (if s.lc.getLsbD 31 then do
      modify fun s => { s with lc := s.lc &&& ~~~(1#32 <<< 31), vmaReg := oldLc >>> 2 }
      startRead port (oldLc >>> 2)
      pure ppc
    else pure (ppc ||| 2))
  let s ← get
  let lc0b := s.interruptControl.getLsbD 29 && s.lc.getLsbD 0
  let lc1 := s.lc.getLsbD 1
  let lastByteInWord := !lc0b && !lc1
  doWhen lastByteInWord (modify fun s => { s with lc := s.lc ||| (1#32 <<< 31) })
  return ppc

/-- `mfread`: read a functional source. -/
def mfread (addr : Word) : Micro β Word := do
  let s ← get
  match (addr &&& 0o37).toNat with
  | 0 => return s.dispatchConstant
  | 1 => do
    let top ← fromExcept (subscript .spc s.spc s.spcptr)
    return (s.spcptr <<< 24) ||| (top &&& 0o1777777)
  | 2 => return s.pdlPointer &&& 0o1777
  | 3 => return s.pdlIndex &&& 0o1777
  | 5 => fromExcept (subscript .pdl s.pdl s.pdlIndex)
  | 6 => return s.opc
  | 7 => return s.q
  | 0o10 => return s.vmaReg
  | 0o11 => do
    let t ← fromExcept (uvmemVtop s.toMaps s.mdReg)
    return (if t.writePermission then 0#32 else 1#32 <<< 31) |||
      (if t.accessPermission then 0#32 else 1#32 <<< 30) |||
      (1#32 <<< 29) |||
      ((t.l1Data &&& 0o37) <<< 24) |||
      (t.l2Data &&& 0o77777777)
  | 0o12 => return s.mdReg
  | 0o13 => return if s.interruptControl.getLsbD 29 then s.lc else s.lc &&& ~~~1#32
  | 0o14 => do
    let v ← popSPC
    return (s.spcptr <<< 24) ||| (v &&& 0o1777777)
  | 0o15 => return 0
  | 0o24 => do
    let res ← fromExcept (subscript .pdl s.pdl s.pdlPointer)
    modify fun s => { s with pdlPointer := (s.pdlPointer - 1) &&& 0o1777 }
    return res
  | 0o25 => fromExcept (subscript .pdl s.pdl s.pdlPointer)
  | 0o26 => return 0
  | _ => err "unknown MF register (%o) read\n" [addr.toNat]

/-- `pdl[i] = data`. -/
def writePdl (i data : Word) : Micro β Unit := do
  let s ← get
  let pdl ← fromExcept (assign .pdl s.pdl i data)
  modify fun s => { s with pdl := pdl }

/-- `uvmem_write_map` on the maps of the processor. -/
def writeMap (vma md : Word) : Micro β Unit := do
  let s ← get
  let maps ← fromExcept (uvmemWriteMap s.toMaps vma md)
  modify fun s => { s with toMaps := maps }

/-- The functional destination LOCATION-COUNTER. -/
def writeLc (data : Word) : Micro β Unit :=
  modify fun s =>
    let lc := (s.lc &&& ~~~0o377777777#32) ||| (data &&& 0o377777777)
    let lc := if s.interruptControl.getLsbD 29 then lc else lc &&& ~~~1#32
    { s with lc := lc ||| (1#32 <<< 31) }

/-- The functional destination INTERRUPT-CONTROL. -/
def writeInterruptControl (data : Word) : Micro β Unit := do
  modify fun s => { s with interruptControl := data }
  doWhen (data.getLsbD 28) (modify fun s =>
    let r := port.busReset s.toBusState
    { s with interruptPendingFlag := r.1, dev := r.2 })
  modify fun s => { s with
    lc := (s.lc &&& ~~~(0o17#32 <<< 26)) ||| (s.interruptControl &&& (0o17#32 <<< 26)) }

/-- `mfwrite`: write a functional destination. An unknown one only warns. -/
def mfwrite (dest data : Word) : Micro β Unit := do
  let s ← get
  match (dest >>> 5).toNat with
  | 0 => return
  | 1 => writeLc data
  | 2 => writeInterruptControl port data
  | 0o10 => writePdl s.pdlPointer data
  | 0o11 => do
    modify fun s => { s with pdlPointer := (s.pdlPointer + 1) &&& 0o1777 }
    writePdl ((s.pdlPointer + 1) &&& 0o1777) data
  | 0o12 => writePdl s.pdlIndex data
  | 0o13 => modify fun s => { s with pdlIndex := data &&& 0o1777 }
  | 0o14 => modify fun s => { s with pdlPointer := data &&& 0o1777 }
  | 0o15 => pushSPC data
  | 0o16 => modify fun s => { s with oaRegLow := data &&& 0o377777777, oal := true }
  | 0o17 => modify fun s => { s with oaRegHigh := data &&& 0o37777777, oah := true }
  | 0o20 => modify fun s => { s with vmaReg := data }
  | 0o21 => do
    modify fun s => { s with vmaReg := data }
    startRead port data
  | 0o22 => do
    modify fun s => { s with vmaReg := data }
    vmWrite port data s.mdReg
  | 0o23 => do
    modify fun s => { s with vmaReg := data }
    writeMap data s.mdReg
  | 0o30 => modify fun s => { s with mdReg := data }
  | 0o31 => do
    modify fun s => { s with mdReg := data }
    startRead port s.vmaReg
  | 0o32 => do
    modify fun s => { s with mdReg := data }
    vmWrite port s.vmaReg data
  | 0o33 => do
    modify fun s => { s with mdReg := data }
    writeMap s.vmaReg data
  | _ => return

/-- `writeDest`: write the output bus to the decoded destination. -/
def writeDest (dest : Word) : Micro β Unit := do
  if dest &&& 0o4000 ≠ 0 then
    let s ← get
    let amem ← fromExcept (assign .amem s.amem (dest &&& 0o3777) s.out)
    modify fun s => { s with amem := amem }
  else
    let s ← get
    mfwrite port dest s.out
    let s ← get
    let amem ← fromExcept (assign .amem s.amem (dest &&& 0o37) s.out)
    let mmem ← fromExcept (assign .mmem s.mmem (dest &&& 0o37) s.out)
    modify fun s => { s with amem := amem, mmem := mmem }

end Usim
