import Usim.Uvmem

/-!
# The micro engine of the C# port

The class `UCode` of `UCode.cs` with its `Uvmem`, as far as `Step` uses them.
The bus behind `Vm` is the same parameter as for the C engine. Logging and the
counters that no statement of `Step` reads are left out.
-/

namespace Usim

open Lib

/-- An exception of the C# port. -/
inductive Thrown
  /-- `InvalidOperationException`, with its text and the value printed in it. -/
  | invalidOperation (message : String) (value : ℕ)
  /-- `IndexOutOfRangeException`, with the index. -/
  | indexOutOfRange (index : ℕ)
  /-- What ends an access behind the bus. -/
  | bus (fault : Fault)
  deriving DecidableEq, Repr

/-- The class `UCode`. -/
structure UCode (β : Type) where
  /-- `PromDisabled`. -/
  promDisabled : Bool
  /-- `InterruptPendingFlag`. -/
  interruptPendingFlag : Bool
  /-- `Prom`. -/
  prom : Fin 512 → BitVec 64
  /-- `IMem`. -/
  iMem : Fin 16384 → BitVec 64
  /-- `AMem`. -/
  aMem : Fin 1024 → Word
  /-- `MMem`. -/
  mMem : Fin 32 → Word
  /-- `DMem`. -/
  dMem : Fin 2048 → Word
  /-- `Pdl`. -/
  pdl : Fin 1024 → Word
  /-- `Spc`. -/
  spc : Fin 32 → Word
  /-- `SpcPtr`. -/
  spcPtr : Word
  /-- `DispatchConstant`. -/
  dispatchConstant : Word
  /-- `PdlPointer`. -/
  pdlPointer : Word
  /-- `PdlIndex`. -/
  pdlIndex : Word
  /-- `VmaReg`. -/
  vmaReg : Word
  /-- `MdReg`. -/
  mdReg : Word
  /-- `Lc`. -/
  lc : Word
  /-- `OaRegHigh`. -/
  oaRegHigh : Word
  /-- `OaRegLow`. -/
  oaRegLow : Word
  /-- `Opc`. -/
  opc : Word
  /-- `Q`. -/
  q : Word
  /-- `OldQ`. -/
  oldQ : Word
  /-- `InterruptControl`. -/
  interruptControl : Word
  /-- `P0`. -/
  p0 : BitVec 64
  /-- `P0Pc`. -/
  p0Pc : Word
  /-- `P0Imem`. -/
  p0Imem : Bool
  /-- `P1`. -/
  p1 : BitVec 64
  /-- `P1Pc`. -/
  p1Pc : Word
  /-- `P1Imem`. -/
  p1Imem : Bool
  /-- `Iwr`. -/
  iwr : BitVec 64
  /-- `Npc`. -/
  npc : Word
  /-- `AAddr`. -/
  aAddr : Word
  /-- `AData`, an `int`. -/
  aData : Word
  /-- `MAddr`. -/
  mAddr : Word
  /-- `MData`, an `int`. -/
  mData : Word
  /-- `Out`. -/
  out : Word
  /-- `Inhibit`. -/
  inhibit : Bool
  /-- `Op`. -/
  op : Word
  /-- `Popj`. -/
  popj : Bool
  /-- `NewMd`. -/
  newMd : Word
  /-- `NewMdDelay`. -/
  newMdDelay : Word
  /-- `AluCarry`. -/
  aluCarry : Word
  /-- `AluOut`. -/
  aluOut : Word
  /-- `Oal`. -/
  oal : Bool
  /-- `Oah`. -/
  oah : Bool
  /-- `VmaOk`. -/
  vmaOk : Bool
  /-- `Halted`. -/
  halted : Bool
  /-- The arrays of `Uvmem`. -/
  uvmem : Maps
  /-- Everything behind the bus. -/
  dev : β

/-- A method of the C# port. -/
abbrev Sharp (β : Type) := EStateM Thrown (UCode β)

namespace UCode

variable {β : Type}

/-- What an access behind the bus can change. -/
def bus (u : UCode β) : BusState β where
  amem := u.aMem
  mdReg := u.mdReg
  vmaok := u.vmaOk
  promdisabled := u.promDisabled
  interruptPendingFlag := u.interruptPendingFlag
  dev := u.dev

/-- The state after an access behind the bus. -/
def setBus (u : UCode β) (b : BusState β) : UCode β :=
  { u with
    aMem := b.amem
    mdReg := b.mdReg
    vmaOk := b.vmaok
    promDisabled := b.promdisabled
    interruptPendingFlag := b.interruptPendingFlag
    dev := b.dev }

/-- The array element `a[i]`. -/
def item {n : ℕ} {α : Type} (a : Fin n → α) (i : Word) : Except Thrown α :=
  if h : i.toNat < n then .ok (a ⟨i.toNat, h⟩) else .error (.indexOutOfRange i.toNat)

/-- The array `a` after the assignment `a[i] = v`. -/
def setItem {n : ℕ} {α : Type} (a : Fin n → α) (i : Word) (v : α) : Except Thrown (Fin n → α) :=
  if h : i.toNat < n then .ok (Function.update a ⟨i.toNat, h⟩ v)
  else .error (.indexOutOfRange i.toNat)

/-- `Ir`. -/
def ir (p0 : BitVec 64) (pos len : ℕ) : BitVec 64 := (p0 >>> pos) &&& ((1#64 <<< len) - 1)

/-- `Uvmem.Vtop`. -/
def vtop (m : Maps) (vaddr : Word) : Except Thrown Translation := do
  let vaddr := vaddr &&& 0x00FFFFFF
  let l1Index := (vaddr >>> 13) &&& 0x7FF
  let l1Data := (← item m.l1Map l1Index) &&& 0x1F
  let l2Index := (l1Data <<< 5) ||| ((vaddr >>> 8) &&& 0x1F)
  let l2Data ← item m.l2Map l2Index
  let physicalPageNumber := l2Data &&& 0x3FFF
  return {
    paddr := (physicalPageNumber <<< 8) ||| (vaddr &&& 0xFF)
    l1Data := l1Data
    l2Data := l2Data
    physicalPageNumber := physicalPageNumber
    writePermission := l2Data.getLsbD 22
    accessPermission := l2Data.getLsbD 23 }

/-- `Uvmem.WriteMap`. -/
def writeMap (m : Maps) (vma md : Word) : Except Thrown Maps := do
  let l1Index := (md >>> 13) &&& 0x7FF
  let m ← (if vma.getLsbD 26 then do
      let l1Map ← setItem m.l1Map l1Index ((vma >>> 27) &&& 0x1F)
      pure { m with l1Map := l1Map }
    else pure m)
  (if vma.getLsbD 25 then do
      let l1Data ← item m.l1Map l1Index
      let l2Index := (l1Data <<< 5) ||| ((md >>> 8) &&& 0x1F)
      let l2Map ← setItem m.l2Map l2Index (vma &&& 0x00FFFFFF)
      pure { m with l2Map := l2Map }
    else pure m)

/-- `Add32`. -/
def add32 (a b : Word) (ci : Bool) : Word × Word :=
  let outv := a + b + (if ci then 1 else 0)
  let notA := ~~~a
  let co := if ci then (if notA.sle b then 0 else 1) else (if notA.slt b then 0 else 1)
  (outv, co)

/-- `Sub32`. -/
def sub32 (a b : Word) (ci : Bool) : Word × Word :=
  let outv := a - b - (if ci then 0 else 1)
  (outv, if outv < a then 1 else 0)

/-- `Abs32`. -/
def abs32 (a : Word) : Word := if a.slt 0 then ~~~a + 1 else a

/-- `Rol32`, for a rotation below 32. -/
def rol32 (value : Word) (bits : ℕ) : Word :=
  if bits = 0 then value
  else
    let mask := (0x80000000#32).sshiftRight bits
    let tmp : Word := (((value &&& mask).setWidth 64) >>> (32 - bits)).setWidth 32
    (value <<< bits) ||| tmp

/-- `LogiOps`. -/
def logiOps (op mData aData aluOut : Word) : Word :=
  match op.toNat with
  | 0 => 0
  | 1 => mData &&& aData
  | 2 => mData &&& ~~~aData
  | 3 => mData
  | 4 => ~~~mData &&& aData
  | 5 => aData
  | 6 => mData ^^^ aData
  | 7 => mData ||| aData
  | 8 => ~~~aData &&& ~~~mData
  | 9 => if aData = mData then 1 else 0
  | 10 => ~~~aData
  | 11 => mData ||| ~~~aData
  | 12 => ~~~mData
  | 13 => ~~~mData ||| aData
  | 14 => ~~~mData ||| ~~~aData
  | 15 => 0xFFFFFFFF
  | _ => aluOut

/-- The last two statements of `ArithOps`. -/
def arithResult (lv : BitVec 64) : Word × Word :=
  (lv.setWidth 32, if lv.sshiftRight 32 ≠ 0 then 1 else 0)

/-- `ArithOps`. -/
def arithOps (op mData aData : Word) (cin : Bool) (aluOut aluCarry : Word) : Word × Word :=
  let long (x : Word) : BitVec 64 := x.signExtend 64
  match op.toNat with
  | 16 => (if cin then 0 else 0xFFFFFFFF, 0)
  | 17 => arithResult (long (mData &&& aData) - (if cin then 0 else 1))
  | 18 => arithResult (long (mData &&& ~~~aData) - (if cin then 0 else 1))
  | 19 => arithResult (long mData - (if cin then 0 else 1))
  | 20 => arithResult (long (mData ||| ~~~aData) + (if cin then 1 else 0))
  | 21 => arithResult (long (mData ||| ~~~aData) + long (mData &&& aData) + (if cin then 1 else 0))
  | 22 => sub32 mData aData cin
  | 23 => arithResult (long (mData ||| ~~~aData) + long mData + (if cin then 1 else 0))
  | 24 => arithResult (long (mData ||| aData) + (if cin then 1 else 0))
  | 25 => add32 mData aData cin
  | 26 => arithResult (long (mData ||| aData) + long (mData &&& ~~~aData) + (if cin then 1 else 0))
  | 27 => arithResult (long (mData ||| aData) + long mData + (if cin then 1 else 0))
  | 28 => (mData + (if cin then 1 else 0), if mData = -1 ∧ cin then 1 else 0)
  | 29 => arithResult (long mData + long (mData &&& aData) + (if cin then 1 else 0))
  | 30 => arithResult (long mData + long (mData ||| ~~~aData) + (if cin then 1 else 0))
  | 31 => add32 mData mData cin
  | _ => (aluOut, aluCarry)

/-- `DivOps`. The remainder correction is expanded, so that its carry reads the
sum just written. -/
def divOps (op mData aData : Word) (cin : Bool) (q aluOut aluCarry : Word) : Word × Word :=
  match op.toNat with
  | 32 =>
    if q &&& 1 ≠ 0 then add32 aData mData cin
    else (mData, if mData &&& 0x80000000 ≠ 0 then 1 else 0)
  | 33 =>
    if q &&& 1 ≠ 0 then sub32 mData (abs32 aData) !cin else add32 mData (abs32 aData) cin
  | 37 =>
    if q &&& 1 ≠ 0 then (aluOut, 0)
    else
      let bArg := abs32 aData
      let newOut := aluOut + bArg + (if cin then 1 else 0)
      (newOut, if cin then (if (~~~newOut).sle bArg then 0 else 1)
        else (if (~~~newOut).slt bArg then 0 else 1))
  | 41 => sub32 mData (abs32 aData) !cin
  | _ => (aluOut, aluCarry)

/-- The part of `Alu` that selects the operation. -/
def aluResult (aluop mData aData : Word) (cin : Bool) (q aluOut : Word) : Word × Word :=
  if aluop ≤ 15 then (logiOps aluop mData aData aluOut, 0)
  else if 16 ≤ aluop ∧ aluop ≤ 31 then arithOps aluop mData aData cin aluOut 0
  else if aluop = 32 ∨ aluop = 33 ∨ aluop = 37 ∨ aluop = 41 then
    divOps aluop mData aData cin q aluOut 0
  else (aluOut, 0)

/-- The value that `QControl` leaves in `Q`. -/
def nextQ (p0 : BitVec 64) (aluOut q : Word) : Word :=
  match (ir p0 0 2).toNat with
  | 1 => if aluOut &&& 0x80000000 = 0 then (q <<< 1) ||| 1 else q <<< 1
  | 2 => if aluOut &&& 1 ≠ 0 then (q >>> 1) ||| 0x80000000 else q >>> 1
  | 3 => aluOut
  | _ => q

/-- The value that `OutControl` leaves in `Out`. -/
def nextOut (p0 : BitVec 64) (mData aluOut aluCarry oldQ out : Word) : Word :=
  match ((p0 >>> 12) &&& 3).toNat with
  | 0 => rol32 mData (p0 &&& 0x1F).toNat
  | 1 => aluOut
  | 2 => (aluOut >>> 1) ||| (if aluCarry ≠ 0 then 0x80000000 else 0)
  | 3 => (aluOut <<< 1) ||| (if oldQ &&& 0x80000000 ≠ 0 then 1 else 0)
  | _ => out

/-- `LcByteMode`. -/
def lcByteMode (p0 : BitVec 64) (lc interruptControl : Word) : Word :=
  if interruptControl.getLsbD 29 then
    let ir4 := (p0 >>> 4).setWidth 32 &&& 1
    let ir3 := (p0 >>> 3).setWidth 32 &&& 1
    let lc1 := (lc >>> 1) &&& 1
    let lc0 := lc &&& 1
    (p0 &&& 7).setWidth 32 ||| (((ir4 ^^^ (lc1 ^^^ lc0)) <<< 4) ||| ((ir3 ^^^ lc0) <<< 3))
  else
    let ir4 := (p0 >>> 4).setWidth 32 &&& 1
    let lc1 := (lc >>> 1) &&& 1
    (p0 &&& 0xF).setWidth 32 ||| ((if ir4 ^^^ lc1 = 0 then 1#32 else 0#32) <<< 4)

/-- `Msk`. -/
def msk (p0 : BitVec 64) (pos : Word) : Word :=
  let widthm1 : Word := (ir p0 5 5).setWidth 32
  let rightMaskIndex := pos
  let leftMaskIndex := (rightMaskIndex + widthm1) &&& 0x1F
  let leftMask := (~~~0#32) >>> (31 - leftMaskIndex).toNat
  let rightMask := (~~~0#32) <<< rightMaskIndex.toNat
  leftMask &&& rightMask

end UCode

end Usim
