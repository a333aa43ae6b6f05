import Usim.CSharp.MainMemory
import Usim.CSharp.UCode
import Usim.DiskController

/-!
# The disk of the C# port

The classes `DiskUnit` and `DiskController`. The port has blocking transfers
only. Opening the image file, the log messages and `Idle` are left out.
-/

namespace Usim

/-- The class `DiskUnit`. -/
structure SharpDiskUnit where
  /-- `Unit`. -/
  unit : Word
  /-- `Cylinders`. -/
  cylinders : Word
  /-- `Heads`. -/
  heads : Word
  /-- `BlocksPerTrack`. -/
  blocksPerTrack : Word
  /-- `BlocksPerCylinder`. -/
  blocksPerCylinder : Word
  /-- `Online`. -/
  online : Bool
  /-- `ReadOnly`. -/
  readOnly : Bool
  /-- `SeekError`. -/
  seekError : Bool
  /-- `HasFault`. -/
  hasFault : Bool
  /-- `Attention`. -/
  attention : Bool
  /-- `LastMemoryAddress`. -/
  lastMemoryAddress : Word
  /-- `Cylinder`. -/
  cylinder : Word
  /-- `Head`. -/
  head : Word
  /-- `Sector`. -/
  sector : Word
  /-- `Lba`. -/
  lba : Word
  /-- The blocks of `_file`, which may be null. -/
  file : Option (Word → Page)
  /-- `_fileSize`. -/
  fileSize : ℕ

namespace SharpDiskUnit

/-- `Read`: the block, unless there is none. -/
def read (p : SharpDiskUnit) : Option Page :=
  match p.file with
  | none => none
  | some file => if p.fileSize ≤ p.lba.toNat * 1024 then none else some (file p.lba)

/-- `Write`: the unit afterwards, unless there is no such block. -/
def write (p : SharpDiskUnit) (buffer : Page) : Option SharpDiskUnit :=
  match p.file with
  | none => none
  | some file =>
    if p.fileSize ≤ p.lba.toNat * 1024 then none
    else some { p with file := some (Function.update file p.lba buffer) }

/-- `Seek`: whether it succeeded, and the unit afterwards. -/
def seek (p : SharpDiskUnit) (cylinder head sector : Word) : Bool × SharpDiskUnit :=
  if cylinder = p.cylinder ∧ head = p.head ∧ sector = p.sector then (true, p)
  else if p.cylinders ≤ cylinder then (false, { p with seekError := true })
  else if p.heads ≤ head then (false, { p with seekError := true })
  else if p.blocksPerTrack ≤ sector then (false, { p with seekError := true })
  else
    (true, { p with
      cylinder := cylinder
      head := head
      sector := sector
      lba := cylinder * p.blocksPerCylinder + head * p.blocksPerTrack + sector })

/-- The position that `SeekNextLba` seeks. -/
def next (p : SharpDiskUnit) : Word × Word × Word :=
  let sector := p.sector + 1
  if sector = p.blocksPerTrack then
    let head := p.head + 1
    if head = p.heads then (p.cylinder + 1, 0, 0) else (p.cylinder, head, 0)
  else (p.cylinder, p.head, sector)

/-- `SeekNextLba`. -/
def seekNextLba (p : SharpDiskUnit) : Bool × SharpDiskUnit :=
  p.seek p.next.1 p.next.2.1 p.next.2.2

/-- `RaiseAttention`. -/
def raiseAttention (p : SharpDiskUnit) : SharpDiskUnit := { p with attention := true }

/-- `Da`. -/
def da (p : SharpDiskUnit) : Word :=
  (p.unit <<< 28) ||| (p.cylinder <<< 16) ||| (p.head <<< 8) ||| p.sector

/-- The unit of the C program with the same geometry and position. -/
def place (p : SharpDiskUnit) : DiskUnit where
  unit := p.unit
  ncylinders := p.cylinders
  nheads := p.heads
  nblocksPerTrack := p.blocksPerTrack
  nblocksPerCylinder := p.blocksPerCylinder
  online := p.online
  readOnly := p.readOnly
  seekError := p.seekError
  hasFault := p.hasFault
  attention := p.attention
  lastMemoryAddress := p.lastMemoryAddress
  mm := p.file.getD fun _ _ => 0
  mmsz := p.fileSize
  cylinder := p.cylinder
  head := p.head
  sector := p.sector
  lba := p.lba

/-- A seek is one of the C program. -/
theorem place_seek (p : SharpDiskUnit) (cylinder head sector : Word) :
    (p.seek cylinder head sector).1 = (diskUnitSeek p.place cylinder head sector).1 ∧
      (p.seek cylinder head sector).2.place = (diskUnitSeek p.place cylinder head sector).2 := by
  unfold seek diskUnitSeek place
  dsimp only
  split_ifs <;> exact ⟨rfl, rfl⟩

/-- Moving on lowers the rank of the place. -/
theorem rank_seekNextLba {p : SharpDiskUnit} (h : p.seekNextLba.1 = true) :
    p.seekNextLba.2.place.rank < p.place.rank := by
  obtain ⟨hsame, hplace⟩ := p.place_seek p.next.1 p.next.2.1 p.next.2.2
  rw [seekNextLba] at h ⊢
  rw [hplace]
  exact rank_diskUnitSeekNextLba (hsame.symm.trans h)

end SharpDiskUnit

/-- The class `DiskController`, with the main memory and the interrupts of `UCode`. -/
structure SharpDiskController where
  /-- `_cmd`. -/
  cmd : Word
  /-- `_clp`. -/
  clp : Word
  /-- `_da`. -/
  da : Word
  /-- `_resetCondition`. -/
  resetCondition : Bool
  /-- `_readCompareDifference`. -/
  readCompareDifference : Bool
  /-- `_ccwCycle`. -/
  ccwCycle : Bool
  /-- `_nonexistentMemoryError`. -/
  nonexistentMemoryError : Bool
  /-- `_interruptRequest`. -/
  interruptRequest : Bool
  /-- `_notActive`. -/
  notActive : Bool
  /-- `_doneInterruptEnable`. -/
  doneInterruptEnable : Bool
  /-- `_attentionInterruptEnable`. -/
  attentionInterruptEnable : Bool
  /-- `_units`. -/
  units : Fin 8 → SharpDiskUnit
  /-- `_mainMemory`. -/
  mainMemory : SharpMemory
  /-- `InterruptStatusReg` and `InterruptPendingFlag` of `_ucode`. -/
  ucode : Interrupts

/-- What `PerformXfer` works on. -/
structure SharpXfer where
  /-- The unit `p`. -/
  p : SharpDiskUnit
  /-- `_readCompareDifference`. -/
  readCompareDifference : Bool
  /-- `_ccwCycle`. -/
  ccwCycle : Bool
  /-- `_nonexistentMemoryError`. -/
  nonexistentMemoryError : Bool
  /-- `_mainMemory`. -/
  mainMemory : SharpMemory

namespace SharpXfer

/-- Load the memory address register. -/
def setLastMemoryAddress (x : SharpXfer) (paddr : Word) : SharpXfer :=
  { x with p := { x.p with lastMemoryAddress := paddr } }

/-- The unit has a fault. -/
def setFault (x : SharpXfer) : SharpXfer := { x with p := { x.p with hasFault := true } }

/-- `PerformXfer`, the part that compares. -/
def compareBlock (buffer : Page) (paddr : Word) (x : SharpXfer) : Bool × SharpXfer :=
  let x := x.setLastMemoryAddress paddr
  match x.mainMemory.readPage paddr with
  | some bufferCompare =>
    let x := x.setLastMemoryAddress (paddr + 255)
    (true, if ∃ i, buffer i ≠ bufferCompare i then { x with readCompareDifference := true } else x)
  | none => (false, { x with nonexistentMemoryError := true })

/-- `PerformXfer`, the part that stores the block read. -/
def readBlock (buffer : Page) (paddr : Word) (x : SharpXfer) : Bool × SharpXfer :=
  let x := x.setLastMemoryAddress paddr
  match x.mainMemory.writePage paddr buffer with
  | some mainMemory =>
    (true, { x.setLastMemoryAddress (paddr + 255) with mainMemory := mainMemory })
  | none => (false, { x with nonexistentMemoryError := true })

/-- `PerformXfer`, the part that writes the page. -/
def writeBlock (paddr : Word) (x : SharpXfer) : Bool × SharpXfer :=
  let x := x.setLastMemoryAddress paddr
  match x.mainMemory.readPage paddr with
  | some buffer =>
    let x := x.setLastMemoryAddress (paddr + 255)
    match x.p.write buffer with
    | some p => (true, { x with p := p })
    | none => (false, x.setFault)
  | none => (false, { x with nonexistentMemoryError := true })

/-- `PerformXfer`, the transfer of one block. -/
def xferBlock (read compare : Bool) (paddr : Word) (x : SharpXfer) : Bool × SharpXfer :=
  if read then
    match x.p.read with
    | some buffer => if compare then compareBlock buffer paddr x else readBlock buffer paddr x
    | none => (false, x.setFault)
  else writeBlock paddr x

/-- The body of the loop of `PerformXfer`. -/
def xferCcw (read compare : Bool) (currentClp : Word) (x : SharpXfer) : Option Word × SharpXfer :=
  let x := x.setLastMemoryAddress currentClp
  let ccw := x.mainMemory.tryReadWord currentClp
  if ¬ccw.1 then (none, { x with ccwCycle := true, nonexistentMemoryError := true })
  else
    let r := xferBlock read compare (ccw.2 &&& 0x00FFFF00) { x with ccwCycle := false }
    (if r.1 then some ccw.2 else none, r.2)

/-- The place does not depend on the memory address, the fault and the file. -/
theorem place_update (p : SharpDiskUnit) (lastMemoryAddress : Word) (hasFault : Bool)
    (file : Option (Word → Page)) : SamePlace p.place (SharpDiskUnit.place { p with
      lastMemoryAddress := lastMemoryAddress
      hasFault := hasFault
      file := file }) :=
  samePlace_update p.place _ _ _

/-- A block written leaves the place. -/
theorem place_write {p p' : SharpDiskUnit} {buffer : Page} (h : p.write buffer = some p') :
    SamePlace p.place p'.place := by
  unfold SharpDiskUnit.write at h
  split at h
  · cases h
  · split at h
    · cases h
    · cases h
      exact place_update p _ _ _

/-- The transfer of a block leaves the place. -/
theorem place_xferBlock (read compare : Bool) (paddr : Word) (x : SharpXfer) :
    SamePlace x.p.place (xferBlock read compare paddr x).2.p.place := by
  unfold xferBlock compareBlock readBlock writeBlock
  dsimp only
  split
  · split
    · split
      · split
        · split <;> exact place_update x.p _ _ _
        · exact place_update x.p _ _ _
      · split <;> exact place_update x.p _ _ _
    · exact place_update x.p _ _ _
  · split
    · split
      · rename_i p hp
        exact (place_update x.p _ _ _).trans (place_write hp)
      · exact place_update x.p _ _ _
    · exact place_update x.p _ _ _

/-- The body of the loop leaves the place. -/
theorem place_xferCcw (read compare : Bool) (currentClp : Word) (x : SharpXfer) :
    SamePlace x.p.place (xferCcw read compare currentClp x).2.p.place := by
  unfold xferCcw
  dsimp only
  split
  · exact place_update x.p _ _ _
  · exact (place_update x.p currentClp x.p.hasFault x.p.file).trans
      (place_xferBlock read compare _ { x.setLastMemoryAddress currentClp with ccwCycle := false })

/-- The loop of `PerformXfer`. -/
def performXferLoop (read compare : Bool) (clp : Word) (clpOffset : HalfWord) (x : SharpXfer) :
    Bool × SharpXfer :=
  let r := xferCcw read compare (clp + clpOffset.setWidth 32) x
  match r.1 with
  | none => (false, r.2)
  | some ccw =>
    if ccw &&& 1 = 0 then (true, r.2)
    else if h : r.2.p.seekNextLba.1 = true then
      performXferLoop read compare clp (clpOffset + 1) { r.2 with p := r.2.p.seekNextLba.2 }
    else (false, { r.2 with p := r.2.p.seekNextLba.2 })
termination_by x.p.place.rank
decreasing_by
  exact Nat.lt_of_lt_of_eq (SharpDiskUnit.rank_seekNextLba h) (place_xferCcw _ _ _ _).rank

/-- `PerformXfer`. -/
def performXfer (read compare : Bool) (clp : Word) (x : SharpXfer) : Bool × SharpXfer :=
  performXferLoop read compare clp 0 { x with
    readCompareDifference := false
    ccwCycle := false
    nonexistentMemoryError := false }

end SharpXfer

namespace SharpDiskController

/-- `(da >> 28) & 0x7`. -/
def unitIndex (da : Word) : Fin 8 := Fin.ofNat 8 ((da >>> 28) &&& 0x7).toNat

/-- `SelectedUnit`. -/
def selectedUnit (c : SharpDiskController) : SharpDiskUnit := c.units (unitIndex c.da)

/-- Change a unit. -/
def setUnit (c : SharpDiskController) (unit : Fin 8) (p : SharpDiskUnit) : SharpDiskController :=
  { c with units := Function.update c.units unit p }

/-- Change the selected unit. -/
def onSelectedUnit (f : SharpDiskUnit → SharpDiskUnit) (c : SharpDiskController) :
    SharpDiskController :=
  c.setUnit (unitIndex c.da) (f c.selectedUnit)

/-- `UCode.SetInterruptStatusReg`. -/
def setInterruptStatusReg (newValue : Word) : Interrupts :=
  ⟨newValue, decide (newValue &&& 0xC000 ≠ 0)⟩

/-- `AssertInterrupt`, with `UCode.AssertXbusInterrupt`. -/
def assertInterrupt (c : SharpDiskController) : SharpDiskController :=
  { c with
    interruptRequest := true
    ucode := setInterruptStatusReg (c.ucode.statusReg ||| 0x4000) }

/-- `DeassertInterrupt`, which is `UCode.DeassertXbusInterrupt`. -/
def deassertInterrupt (c : SharpDiskController) : SharpDiskController :=
  if c.ucode.statusReg &&& 0x4000 ≠ 0 then
    { c with ucode := setInterruptStatusReg (c.ucode.statusReg &&& ~~~0x4000) }
  else c

/-- `SetStatusNotActive`. -/
def setStatusNotActive (c : SharpDiskController) : SharpDiskController :=
  let c := { c with notActive := true }
  if c.doneInterruptEnable then c.assertInterrupt else c

/-- `SetStatusActive`. -/
def setStatusActive (c : SharpDiskController) : SharpDiskController := { c with notActive := false }

/-- `ResetStatus`. -/
def resetStatus (c : SharpDiskController) : SharpDiskController :=
  setStatusNotActive { c with
    readCompareDifference := false
    ccwCycle := false
    nonexistentMemoryError := false
    interruptRequest := false }

/-- `Reset`. -/
def reset (c : SharpDiskController) : SharpDiskController :=
  let c := resetStatus { c with
    doneInterruptEnable := false
    attentionInterruptEnable := false }
  { c with cmd := 0, clp := 0, da := 0 }

/-- `EncodeStatus`. -/
def encodeStatus (c : SharpDiskController) : Word :=
  let bit (b : Bool) (n : ℕ) : Word := if b then (1 : Word) <<< n else 0
  let p := c.selectedUnit
  bit c.readCompareDifference 22 ||| bit c.ccwCycle 21 ||| bit c.nonexistentMemoryError 20 |||
    bit p.seekError 10 ||| bit (!p.online) 9 ||| bit p.readOnly 7 ||| bit p.hasFault 6 |||
    bit p.attention 2 ||| bit c.interruptRequest 3 |||
    bit (decide (∃ i, (c.units i).attention = true)) 1 ||| bit c.notActive 0

/-- `DecodeDa`. -/
def decodeDa (da : Word) : Fin 8 × Word × Word × Word :=
  (unitIndex da, (da >>> 16) &&& 0xFFF, (da >>> 8) &&& 0xFF, da &&& 0xFF)

/-- `SubmitXfer`. -/
def submitXfer (read compare : Bool) (c : SharpDiskController) : SharpDiskController :=
  let c := c.setStatusActive
  let a := decodeDa c.da
  let s := (c.units a.1).seek a.2.1 a.2.2.1 a.2.2.2
  let c :=
    if s.1 then
      let x := (SharpXfer.performXfer read compare c.clp ⟨s.2, c.readCompareDifference, c.ccwCycle,
        c.nonexistentMemoryError, c.mainMemory⟩).2
      { c.setUnit a.1 x.p with
        readCompareDifference := x.readCompareDifference
        ccwCycle := x.ccwCycle
        nonexistentMemoryError := x.nonexistentMemoryError
        mainMemory := x.mainMemory
        da := x.p.da }
    else c.setUnit a.1 s.2
  setStatusNotActive c

/-- `StartWrite`. -/
def startWrite (c : SharpDiskController) : SharpDiskController :=
  if c.selectedUnit.readOnly then c.onSelectedUnit ({ · with hasFault := true })
  else c.submitXfer false false

/-- `OnDiskUnitAttention`. -/
def onDiskUnitAttention (c : SharpDiskController) : SharpDiskController :=
  if c.notActive && c.attentionInterruptEnable then c.assertInterrupt else c

/-- `StartSeek`. -/
def startSeek (c : SharpDiskController) : SharpDiskController :=
  let c := c.setStatusActive
  let a := decodeDa c.da
  let c := c.setUnit a.1 ((c.units a.1).seek a.2.1 a.2.2.1 a.2.2.2).2.raiseAttention
  setStatusNotActive c.onDiskUnitAttention

/-- `StartRecalibrate`. -/
def startRecalibrate (c : SharpDiskController) : SharpDiskController :=
  let c := c.setStatusActive
  let c := c.onSelectedUnit fun p =>
    SharpDiskUnit.raiseAttention { (p.seek 0 0 0).2 with hasFault := false, seekError := false }
  setStatusNotActive c.onDiskUnitAttention

/-- `StartFaultClear`. -/
def startFaultClear (c : SharpDiskController) : SharpDiskController :=
  setStatusNotActive (c.setStatusActive.onSelectedUnit ({ · with hasFault := false }))

/-- `StartAtEase`. -/
def startAtEase (c : SharpDiskController) : SharpDiskController :=
  setStatusNotActive (c.setStatusActive.onSelectedUnit ({ · with attention := false }))

/-- `StartOffsetClear`. -/
def startOffsetClear (c : SharpDiskController) : SharpDiskController :=
  setStatusNotActive c.setStatusActive

/-- The command 5 of `Start`. -/
def startAtEaseCommand (c : SharpDiskController) : SharpDiskController :=
  let c := c.startAtEase
  let c := if c.cmd &&& 0x200 ≠ 0 then c.startRecalibrate else c
  if c.cmd &&& 0x100 ≠ 0 then c.startFaultClear else c

/-- `Start`. -/
def start (c : SharpDiskController) : Except Thrown SharpDiskController :=
  if ¬c.selectedUnit.online then .ok c
  else
    let command := c.cmd &&& 0xF
    if command = 0x0 then .ok (c.submitXfer true false)
    else if command = 0x8 then .ok (c.submitXfer true true)
    else if command = 0x9 then .ok c.startWrite
    else if command = 0x2 then
      .error (.invalidOperation "disk-controller: read all not implemented" 0)
    else if command = 0xB then
      .error (.invalidOperation "disk-controller: write all not implemented" 0)
    else if command = 0x4 then .ok c.startSeek
    else if command = 0x5 then .ok c.startAtEaseCommand
    else if command = 0x6 then .ok c.startOffsetClear
    else .error (.invalidOperation "disk-controller: start, cmd (0x%X) unknown" c.cmd.toNat)

/-- `Read`. -/
def read (offset : Word) (c : SharpDiskController) : Except Thrown Word :=
  if c.resetCondition then .ok 0
  else if offset = 0 then .ok c.encodeStatus
  else if offset = 1 then .ok c.selectedUnit.lastMemoryAddress
  else if offset = 2 then .ok c.da
  else if offset = 3 then .ok 0
  else .error (.invalidOperation "disk-controller: unknown read %d" offset.toNat)

/-- `Write`, a command that is stored. -/
def storeCmd (v : Word) (c : SharpDiskController) : SharpDiskController :=
  let c := { c with
    cmd := v
    doneInterruptEnable := decide (v &&& 0x800 ≠ 0)
    attentionInterruptEnable := decide (v &&& 0x400 ≠ 0) }
  if !c.doneInterruptEnable && !c.attentionInterruptEnable then c.deassertInterrupt else c

/-- `Write`. -/
def write (offset v : Word) (c : SharpDiskController) : Except Thrown SharpDiskController :=
  if offset = 0 then
    if v = 0 then .ok { c with cmd := 0, resetCondition := false }
    else if v = 0xE then .ok { c.reset with resetCondition := true }
    else if c.resetCondition then .ok c
    else .ok (c.storeCmd v)
  else if offset = 1 then .ok (if c.resetCondition then c else { c with clp := v })
  else if offset = 2 then .ok (if c.resetCondition then c else { c with da := v })
  else if offset = 3 then if c.resetCondition then .ok c else c.start
  else .error (.invalidOperation "disk-controller: unknown write %d" offset.toNat)

end SharpDiskController

end Usim
