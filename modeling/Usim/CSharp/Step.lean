import Usim.CSharp.UCode

/-!
# `Step` of the C# port

The private methods of `UCode.cs` that change its state, up to `Step`.
-/

namespace Usim

namespace UCode

open Lib

variable {β : Type} (port : VmPort β)

/-- `Vm`: the word read is returned. -/
def vm (write : Bool) (vaddr v : Word) : Sharp β Word := do
  let u ← get
  let (v, b) ← fromExcept ((port.vm write vaddr v u.uvmem u.bus).mapError Thrown.bus)
  modify fun u => u.setBus b
  return v

/-- `VmRead`. -/
def vmRead (vaddr : Word) : Sharp β Word := vm port false vaddr 0

/-- `VmWrite`. -/
def vmWrite (vaddr data : Word) : Sharp β Unit := do
  let _ ← vm port true vaddr data

/-- `VmRead` into `NewMd`, with its delay. -/
def readNewMd (vaddr : Word) : Sharp β Unit := do
  let newMd ← vmRead port vaddr
  modify fun u => { u with newMd := newMd, newMdDelay := 2 }

/-- `IncNpc`. -/
def incNpc : Sharp β Unit := do
  modify fun u => { u with p0 := u.p1, p0Pc := u.p1Pc, p0Imem := u.p1Imem }
  modify fun u => { u with p1Imem := u.promDisabled }
  let u ← get
  let p1 ← fromExcept (if u.p1Imem then item u.iMem u.npc else item u.prom u.npc)
  modify fun u => { u with p1 := p1, p1Pc := u.npc }
  modify fun u => { u with npc := if u.npc = 0x3FFF then 0 else u.npc + 1 }
  modify fun u => { u with opc := u.p0Pc }

/-- `PushSpc`. -/
def pushSpc (pc : Word) : Sharp β Unit := do
  modify fun u => { u with spcPtr := (u.spcPtr + 1) &&& 0x1F }
  let u ← get
  let spc ← fromExcept (setItem u.spc u.spcPtr pc)
  modify fun u => { u with spc := spc }

/-- `PopSpc`. -/
def popSpc : Sharp β Word := do
  let u ← get
  let v ← fromExcept (item u.spc u.spcPtr)
  modify fun u => { u with spcPtr := (u.spcPtr - 1) &&& 0x1F }
  return v

/-- `AdvanceLc`. -/
def advanceLc (ppc : Word) : Sharp β Word := do
  let u ← get
  let oldLc := u.lc &&& 0x03FFFFFF
  modify fun u =>
    { u with lc := if u.interruptControl.getLsbD 29 then u.lc + 1 else u.lc + 2 }
  let u ← get
  let ppc ← (if u.lc.getLsbD 31 then do
      modify fun u => { u with lc := u.lc &&& ~~~(1#32 <<< 31), vmaReg := oldLc >>> 2 }
      readNewMd port (oldLc >>> 2)
      pure ppc
    else pure (ppc ||| 2))
  let u ← get
  let lc0b := u.interruptControl.getLsbD 29 && u.lc.getLsbD 0
  let lc1 := u.lc.getLsbD 1
  let lastByteInWord := !lc0b && !lc1
  doWhen lastByteInWord (modify fun u => { u with lc := u.lc ||| (1#32 <<< 31) })
  return ppc

/-- `MfRead`. -/
def mfRead (addr : Word) : Sharp β Word := do
  let u ← get
  match (addr &&& 0x1F).toNat with
  | 0 => return u.dispatchConstant
  | 1 => do
    let top ← fromExcept (item u.spc u.spcPtr)
    return (u.spcPtr <<< 24) ||| (top &&& 0x7FFFF)
  | 2 => return u.pdlPointer &&& 0x3FF
  | 3 => return u.pdlIndex &&& 0x3FF
  | 5 => fromExcept (item u.pdl u.pdlIndex)
  | 6 => return u.opc
  | 7 => return u.q
  | 8 => return u.vmaReg
  | 9 => do
    let t ← fromExcept (vtop u.uvmem u.mdReg)
    return (if !t.writePermission then 1#32 <<< 31 else 0#32) |||
      (if !t.accessPermission then 1#32 <<< 30 else 0#32) |||
      (1#32 <<< 29) |||
      ((t.l1Data &&& 0x1F) <<< 24) |||
      (t.l2Data &&& 0x00FFFFFF)
  | 10 => return u.mdReg
  | 11 => return if u.interruptControl.getLsbD 29 then u.lc else u.lc &&& ~~~1#32
  | 12 => do
    let top ← fromExcept (item u.spc u.spcPtr)
    modify fun u => { u with spcPtr := (u.spcPtr - 1) &&& 0x1F }
    return (u.spcPtr <<< 24) ||| (top &&& 0x7FFFF)
  | 13 => return 0
  | 20 => do
    let res ← fromExcept (item u.pdl u.pdlPointer)
    modify fun u => { u with pdlPointer := (u.pdlPointer - 1) &&& 0x3FF }
    return res
  | 21 => fromExcept (item u.pdl u.pdlPointer)
  | 22 => return 0
  | _ => throw (.invalidOperation "unknown MF register (0x%X) read" addr.toNat)

/-- `Pdl[i] = data`. -/
def setPdl (i data : Word) : Sharp β Unit := do
  let u ← get
  let pdl ← fromExcept (setItem u.pdl i data)
  modify fun u => { u with pdl := pdl }

/-- `Uvmem.WriteMap` on the maps of the processor. -/
def setMaps (vma md : Word) : Sharp β Unit := do
  let u ← get
  let maps ← fromExcept (writeMap u.uvmem vma md)
  modify fun u => { u with uvmem := maps }

/-- `MfWrite`. An unknown destination only warns. -/
def mfWrite (dest udata : Word) : Sharp β Unit := do
  let u ← get
  match (dest >>> 5).toNat with
  | 0 => return
  | 1 => do
    modify fun u => { u with lc := (u.lc &&& ~~~0x03FFFFFF#32) ||| (udata &&& 0x03FFFFFF) }
    doWhen (u.interruptControl.getLsbD 29 = false) (modify fun u =>
      { u with lc := u.lc &&& ~~~1#32 })
    modify fun u => { u with lc := u.lc ||| (1#32 <<< 31) }
  | 2 => do
    modify fun u => { u with interruptControl := udata }
    doWhen (udata.getLsbD 28) (modify fun u =>
      let r := port.busReset u.bus
      { u with interruptPendingFlag := r.1, dev := r.2 })
    modify fun u => { u with
      lc := (u.lc &&& ~~~(0xF#32 <<< 26)) ||| (u.interruptControl &&& (0xF#32 <<< 26)) }
  | 8 => setPdl u.pdlPointer udata
  | 9 => do
    modify fun u => { u with pdlPointer := (u.pdlPointer + 1) &&& 0x3FF }
    setPdl ((u.pdlPointer + 1) &&& 0x3FF) udata
  | 10 => setPdl u.pdlIndex udata
  | 11 => modify fun u => { u with pdlIndex := udata &&& 0x3FF }
  | 12 => modify fun u => { u with pdlPointer := udata &&& 0x3FF }
  | 13 => pushSpc udata
  | 14 => modify fun u => { u with oaRegLow := udata &&& 0x03FFFFFF, oal := true }
  | 15 => modify fun u => { u with oaRegHigh := udata &&& 0x7FFFFF, oah := true }
  | 16 => modify fun u => { u with vmaReg := udata }
  | 17 => do
    modify fun u => { u with vmaReg := udata }
    readNewMd port udata
  | 18 => do
    modify fun u => { u with vmaReg := udata }
    vmWrite port udata u.mdReg
  | 19 => do
    modify fun u => { u with vmaReg := udata }
    setMaps udata u.mdReg
  | 24 => modify fun u => { u with mdReg := udata }
  | 25 => do
    modify fun u => { u with mdReg := udata }
    readNewMd port u.vmaReg
  | 26 => do
    modify fun u => { u with mdReg := udata }
    vmWrite port u.vmaReg udata
  | 27 => do
    modify fun u => { u with mdReg := udata }
    setMaps u.vmaReg udata
  | _ => return

/-- `WriteDest`. -/
def writeDest (dest : Word) : Sharp β Unit := do
  if dest &&& 0x800 ≠ 0 then
    let u ← get
    let aMem ← fromExcept (setItem u.aMem (dest &&& 0x3FF) u.out)
    modify fun u => { u with aMem := aMem }
  else
    let u ← get
    mfWrite port dest u.out
    let u ← get
    let aMem ← fromExcept (setItem u.aMem (dest &&& 0x1F) u.out)
    let mMem ← fromExcept (setItem u.mMem (dest &&& 0x1F) u.out)
    modify fun u => { u with aMem := aMem, mMem := mMem }

/-- `Alu`. -/
def alu : Sharp β Unit := do
  let u ← get
  let dest := (ir u.p0 14 12).setWidth 32
  let aluop := (ir u.p0 3 6).setWidth 32
  let r := aluResult aluop u.mData u.aData (ir u.p0 2 1 ≠ 0) u.q u.aluOut
  modify fun u => { u with aluOut := r.1, aluCarry := r.2 }
  modify fun u => { u with oldQ := u.q, q := nextQ u.p0 u.aluOut u.q }
  modify fun u => { u with out := nextOut u.p0 u.mData u.aluOut u.aluCarry u.oldQ u.out }
  writeDest port dest

/-- `CheckJumpCondition`. -/
def checkJumpCondition : Sharp β Bool := do
  let u ← get
  if ir u.p0 5 1 = 0 then
    let mData := rol32 u.mData (ir u.p0 0 5).toNat
    modify fun u => { u with mData := mData }
    return mData &&& 1 ≠ 0
  else
    match (ir u.p0 0 4).toNat with
    | 1 => return u.mData.slt u.aData
    | 2 => return u.mData.sle u.aData
    | 3 => return u.mData = u.aData
    | 4 => return !u.vmaOk
    | 5 => return !u.vmaOk || (u.interruptControl.getLsbD 27 && u.interruptPendingFlag)
    | 6 => return !u.vmaOk || (u.interruptControl.getLsbD 27 && u.interruptPendingFlag) ||
        u.interruptControl.getLsbD 26
    | 7 => return true
    | _ => throw (.invalidOperation "unknown jump condition %d" (ir u.p0 0 4).toNat)

/-- The push of a return address, as in `Jmp` and `Dsp`. -/
def pushReturn (n : Bool) : Sharp β Unit := do
  let u ← get
  if ¬n then pushSpc u.npc else pushSpc (u.npc - 1)

/-- The pop of a target, as in `Jmp`, `Dsp` and `Step`. -/
def popTarget : Sharp β Word := do
  let target ← popSpc
  let target ← (if (target >>> 14) &&& 1 ≠ 0 then advanceLc port target else pure target)
  return target &&& 0x3FFF

/-- `Jmp` once its condition is known. -/
def jumpTransfer (cond : Bool) : Sharp β Unit := do
  let u ← get
  let r := ir u.p0 9 1 ≠ 0
  let p := ir u.p0 8 1 ≠ 0
  let n := ir u.p0 7 1 ≠ 0
  doWhen (p ∧ cond) (pushReturn n)
  let target ← (if r ∧ cond then popTarget port else pure ((ir u.p0 12 14).setWidth 32))
  doWhen cond (do
    doWhen n (modify fun u => { u with inhibit := true })
    modify fun u => { u with npc := target, popj := false })

/-- `Jmp`. -/
def jmp : Sharp β Unit := do
  let u ← get
  doWhen (ir u.p0 10 2 = 1) (modify fun u => { u with halted := true })
  if ir u.p0 8 1 ≠ 0 ∧ ir u.p0 9 1 ≠ 0 then
    let iMem ← fromExcept (setItem u.iMem ((ir u.p0 12 14).setWidth 32) u.iwr)
    modify fun u => { u with iMem := iMem }
  else
    let cond ← checkJumpCondition
    jumpTransfer port (if ir u.p0 6 1 ≠ 0 then !cond else cond)

/-- The bits of the level-2 map that `Dsp` merges into the dispatch address. -/
def dispatchMapBits (map : ℕ) (l2MapBits : Word) : Word :=
  let bit19 := (l2MapBits >>> 19) &&& 1
  let bit18 := (l2MapBits >>> 18) &&& 1
  match map with
  | 1 => bit18
  | 2 => bit19
  | 3 => bit18 ||| bit19
  | _ => 0

/-- The mask of `Dsp` for a field of `len` bits. -/
def dispatchMask (len : Word) : Word :=
  let leftMaskIndex := (len - 1) &&& 0x1F
  if len = 0 then 0 else (~~~0#32) >>> (31 - leftMaskIndex).toNat

/-- `Dsp` up to the selection of the dispatch word. -/
def dispatchWord : Sharp β Word := do
  let u ← get
  let pos := if ir u.p0 10 2 = 3 then lcByteMode u.p0 u.lc u.interruptControl
    else (ir u.p0 0 5).setWidth 32
  let mData := rol32 u.mData pos.toNat
  modify fun u => { u with mData := mData }
  let dispAddr := (ir u.p0 12 11).setWidth 32 |||
    (mData &&& dispatchMask ((ir u.p0 5 3).setWidth 32))
  let bits ← (if ir u.p0 8 2 ≠ 0 then do
      let t ← fromExcept (vtop u.uvmem u.mdReg)
      pure (dispatchMapBits (ir u.p0 8 2).toNat t.l2Data)
    else pure 0)
  let dispWord ← fromExcept (item u.dMem ((dispAddr ||| bits) &&& 0x7FF))
  modify fun u => { u with dispatchConstant := (ir u.p0 32 10).setWidth 32 }
  return dispWord

/-- `Dsp` from the dispatch word on. -/
def dispatchTransfer (dispWord : Word) : Sharp β Unit := do
  let u ← get
  let n := (dispWord >>> 14) &&& 1 ≠ 0
  let p := (dispWord >>> 15) &&& 1 ≠ 0
  let r := (dispWord >>> 16) &&& 1 ≠ 0
  doWhen (ir u.p0 25 1 ≠ 0 ∧ n) (modify fun u => { u with npc := u.npc - 1 })
  doWhen (ir u.p0 24 1 ≠ 0) (do let _ ← advanceLc port 0)
  doWhen n (modify fun u => { u with inhibit := true })
  doWhen (¬ (p ∧ r)) (do
    doWhen p (pushReturn n)
    let target ← (if r then popTarget port else pure (dispWord &&& 0x3FFF))
    modify fun u => { u with npc := target, popj := false })

/-- `Dsp`. -/
def dsp : Sharp β Unit := do
  let u ← get
  if ir u.p0 10 2 = 2 then
    let dMem ← fromExcept (setItem u.dMem ((ir u.p0 12 11).setWidth 32) u.aData)
    modify fun u => { u with dMem := dMem }
  else
    let dispWord ← dispatchWord
    dispatchTransfer port dispWord

/-- `Byt`. -/
def byt : Sharp β Unit := do
  let u ← get
  let dest := (ir u.p0 14 12).setWidth 32
  let mrSrBits : Word := (ir u.p0 12 2).setWidth 32
  let pos := if ir u.p0 10 2 = 3 then lcByteMode u.p0 u.lc u.interruptControl
    else (ir u.p0 0 5).setWidth 32
  let mask := msk u.p0 (if mrSrBits &&& 2 ≠ 0 then pos else 0)
  match mrSrBits.toNat with
  | 0 => modify fun u => { u with out := 0 }
  | 2 => modify fun u => { u with out := (u.mData &&& mask) ||| (u.aData &&& ~~~mask) }
  | _ => do
    modify fun u => { u with mData := rol32 u.mData pos.toNat }
    modify fun u => { u with out := (u.mData &&& mask) ||| (u.aData &&& ~~~mask) }
  writeDest port dest

/-- The first part of `Step`: fetch and the merge of the OA registers. The
result tells whether the microinstruction is to be executed. -/
def fetch : Sharp β Bool := do
  incNpc
  let u ← get
  doWhen (u.newMdDelay ≠ 0) (do
    modify fun u => { u with newMdDelay := u.newMdDelay - 1 }
    let u ← get
    doWhen (u.newMdDelay = 0) (modify fun u => { u with mdReg := u.newMd }))
  let u ← get
  if u.inhibit then
    modify fun u => { u with inhibit := false }
    return false
  else
    doWhen u.oal (modify fun u => { u with
      oal := false
      p0 := u.p0 ||| (u.oaRegLow &&& 0x03FFFFFF).setWidth 64 })
    doWhen u.oah (modify fun u => { u with
      oah := false
      p0 := u.p0 ||| ((u.oaRegHigh &&& 0x003FFFFF).setWidth 64 <<< 26) })
    return true

/-- The second part of `Step`: decode. -/
def decode : Sharp β Unit := do
  modify fun u => { u with
    op := (ir u.p0 43 2).setWidth 32
    popj := ir u.p0 42 1 = 1
    aAddr := (ir u.p0 32 10).setWidth 32
    mAddr := (ir u.p0 26 5).setWidth 32 }
  let u ← get
  let mData ← (if ir u.p0 31 1 = 0 then fromExcept (item u.mMem u.mAddr) else mfRead u.mAddr)
  modify fun u => { u with mData := mData }
  let u ← get
  let aData ← fromExcept (item u.aMem u.aAddr)
  modify fun u => { u with aData := aData }
  modify fun u => { u with
    iwr := ((u.aData &&& 0xFFFF).setWidth 64 <<< 32) ||| u.mData.setWidth 64 }

/-- The switch of `Step`. -/
def operate : Sharp β Unit := do
  let u ← get
  match u.op.toNat with
  | 0 => alu port
  | 1 => jmp port
  | 2 => dsp port
  | 3 => byt port
  | _ => return

/-- The last part of `Step`: POPJ. -/
def finishPopj : Sharp β Unit := do
  let u ← get
  doWhen u.popj (do
    let target ← popTarget port
    modify fun u => { u with npc := target })

/-- `Step`. -/
def step : Sharp β Unit := do
  let go ← fetch
  doWhen go (do
    decode
    operate port
    finishPopj port)

end UCode

end Usim
