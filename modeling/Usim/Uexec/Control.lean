import Usim.Uexec.Registers

/-!
# The DISPATCH, JUMP and BYTE instructions

The transfers of control of `uexec.c`, which share the push of a return
address and the pop of a return target, and the byte instruction.
-/

namespace Usim

open Lib

variable {β : Type} (port : VmPort β)

/-- The push of a call: `npc`, or the instruction before it with N. -/
def pushReturn (n : Bool) : Micro β Unit := do
  let s ← get
  pushSPC (if n then s.npc - 1 else s.npc)

/-- The pop of a return, as in `dsp`, `jmp` and POPJ: bit 14 of the popped word
advances the location counter. -/
def popTarget : Micro β Word := do
  let target ← popSPC
  observe (.resume target)
  let target ← (if target.getLsbD 14 then advanceLC port target else pure target)
  return target &&& 0o37777

/-- The mask of `dsp` for a field of `len` bits. -/
def dispatchMask (len : Word) : Word :=
  let leftMaskIndex := (len - 1) &&& 0o37
  if len = 0 then 0 else (~~~0#32) >>> (31 - leftMaskIndex).toNat

/-- The bits of the level-2 map that `dsp` merges into the dispatch address. -/
def dispatchMapBits (map l2MapBits : Word) : Word :=
  let bit19 := (l2MapBits >>> 19) &&& 1
  let bit18 := (l2MapBits >>> 18) &&& 1
  match map.toNat with
  | 1 => bit18
  | 2 => bit19
  | 3 => bit18 ||| bit19
  | _ => 0

/-- The first half of `dsp`: select the word of the dispatch memory. -/
def dispatchWord : Micro β Word := do
  let s ← get
  let pos := if ir s.p0 10 2 = 3 then lcbytemode s.p0 s.lc s.interruptControl else ir s.p0 0 5
  let mdata := rol32 s.mdata pos.toNat
  modify fun s => { s with mdata := mdata }
  let dispAddr := ir s.p0 12 11 ||| (mdata &&& dispatchMask (ir s.p0 5 3))
  let bits ← (if ir s.p0 8 2 ≠ 0 then do
      let t ← fromExcept (uvmemVtop s.toMaps s.mdReg)
      pure (dispatchMapBits (ir s.p0 8 2) t.l2Data)
    else pure 0)
  let word ← fromExcept (subscript .dmem s.dmem ((dispAddr ||| bits) &&& 0o3777))
  modify fun s => { s with dispatchConstant := ir s.p0 32 10 }
  return word

/-- The second half of `dsp`: the transfer that a dispatch word asks for. With
P and R there is none. -/
def dispatchTransfer (word : Word) : Micro β Unit := do
  let s ← get
  let n := word.getLsbD 14
  let p := word.getLsbD 15
  let r := word.getLsbD 16
  doWhen (ir s.p0 25 1 ≠ 0 ∧ n) (modify fun s => { s with npc := s.npc - 1 })
  doWhen (ir s.p0 24 1 ≠ 0) (do let _ ← advanceLC port 0)
  doWhen n (modify fun s => { s with inhibit := true })
  doWhen (¬ (p ∧ r)) (do
    doWhen p (pushReturn n)
    let target ← (if r then popTarget port else pure (word &&& 0o37777))
    modify fun s => { s with npc := target, popj := false })

/-- `dsp`. -/
def dsp : Micro β Unit := do
  let s ← get
  if ir s.p0 10 2 = 2 then
    let dmem ← fromExcept (assign .dmem s.dmem (ir s.p0 12 11) s.adata)
    modify fun s => { s with dmem := dmem }
  else
    let word ← dispatchWord
    dispatchTransfer port word

/-- `check_jcond`: the condition of a JUMP. -/
def checkJcond : Micro β Bool := do
  let s ← get
  if ir s.p0 5 1 = 0 then
    let mdata := rol32 s.mdata (ir s.p0 0 5).toNat
    modify fun s => { s with mdata := mdata }
    return mdata &&& 1 ≠ 0
  else
    let pgf := !s.vmaok
    let int := s.interruptControl.getLsbD 27 && s.interruptPendingFlag
    let sb := s.interruptControl.getLsbD 26
    match (ir s.p0 0 4).toNat with
    | 1 => return s.mdata.slt s.adata
    | 2 => return s.mdata.sle s.adata
    | 3 => return s.mdata = s.adata
    | 4 => return pgf
    | 5 => return pgf || int
    | 6 => return pgf || int || sb
    | 7 => return true
    | _ => err "unknown jump (%llo) condition" [(ir s.p0 0 4).toNat]

/-- The taken or refused transfer of `jmp`. -/
def jumpTransfer (cond : Bool) : Micro β Unit := do
  let s ← get
  let r := ir s.p0 9 1 ≠ 0
  let p := ir s.p0 8 1 ≠ 0
  let n := ir s.p0 7 1 ≠ 0
  doWhen (p ∧ cond) (pushReturn n)
  let target ← (if r ∧ cond then popTarget port else pure (ir s.p0 12 14))
  doWhen cond (do
    doWhen n (modify fun s => { s with inhibit := true })
    modify fun s => { s with npc := target, popj := false })

/-- `jmp`. P and R together write the control memory. -/
def jmp : Micro β Unit := do
  let s ← get
  doWhen (ir s.p0 10 2 = 1) (modify fun s => { s with halted := true })
  if ir s.p0 8 1 ≠ 0 ∧ ir s.p0 9 1 ≠ 0 then
    let imem ← fromExcept (assign .imem s.imem (ir s.p0 12 14) s.iwr)
    modify fun s => { s with imem := imem }
  else
    let cond ← checkJcond
    jumpTransfer port (cond != decide (ir s.p0 6 1 ≠ 0))

/-- `msk`: the mask of a byte instruction. -/
def msk (p0 : BitVec 64) (pos : Word) : Word :=
  let widthm1 := ir p0 5 5
  let rightMaskIndex := pos
  let leftMaskIndex := (rightMaskIndex + widthm1) &&& 0o37
  let leftMask := (~~~0#32) >>> (31 - leftMaskIndex).toNat
  let rightMask := (~~~0#32) <<< rightMaskIndex.toNat
  leftMask &&& rightMask

/-- `byt`. -/
def byt : Micro β Unit := do
  let s ← get
  let dest := ir s.p0 14 12
  let mrSrBits := ir s.p0 12 2
  let pos := if ir s.p0 10 2 = 3 then lcbytemode s.p0 s.lc s.interruptControl else ir s.p0 0 5
  let mask := msk s.p0 (if mrSrBits &&& 2 ≠ 0 then pos else 0)
  let mdata := if mrSrBits &&& 1 ≠ 0 then rol32 s.mdata pos.toNat else s.mdata
  let out := if mrSrBits = 0 then 0 else (mdata &&& mask) ||| (s.adata &&& ~~~mask)
  modify fun s => { s with mdata := mdata, out := out }
  writeDest port dest

end Usim
