import Usim.DiskUnit
import Usim.Interrupts

/-!
# The disk controller

`disk-controller.c`. In the blocking build a transfer runs to its end when START
is written; in the other build, with `WITH_NONBLOCKING_DISKIO`, a thread runs it
in one of its turns. The log messages and the idle counter are left out.
-/

namespace Usim

/-- `struct status_s`. -/
structure DiskStatus where
  /-- The memory differed from the disk. -/
  readCompareDifference : Bool
  /-- The error happened while a command word was fetched. -/
  ccwCycle : Bool
  /-- The memory did not respond. -/
  nonexistentMemoryError : Bool
  /-- The controller requests an interrupt. -/
  interruptRequest : Bool
  /-- The controller is idle. -/
  notActive : Bool
  deriving DecidableEq, Repr

/-- `struct xfer_req_s`. -/
structure XferReq where
  /-- The request waits to be performed. -/
  ready : Bool
  /-- The unit `p`. -/
  p : Fin 8
  /-- The transfer reads the disk. -/
  read : Bool
  /-- The transfer compares. -/
  compare : Bool
  /-- The command list pointer. -/
  clp : Word
  /-- The cylinder. -/
  cylinder : Word
  /-- The head. -/
  head : Word
  /-- The block. -/
  block : Word
  deriving DecidableEq, Repr

/-- The globals of `disk-controller.c`, with the units, the memory and the
interrupts that it reaches. -/
structure DiskGlobals where
  /-- `cmd`. -/
  cmd : Word
  /-- `clp`. -/
  clp : Word
  /-- `da`. -/
  da : Word
  /-- `xfer_req`. -/
  xferReq : XferReq
  /-- `reset_condition`. -/
  resetCondition : Bool
  /-- `status`. -/
  status : DiskStatus
  /-- `done_interrupt_enable`. -/
  doneInterruptEnable : Bool
  /-- `attention_interrupt_enable`. -/
  attentionInterruptEnable : Bool
  /-- `disk_units[8]`. -/
  diskUnits : Fin 8 → DiskUnit
  /-- The main memory. -/
  memory : MainMemory
  /-- The interrupts. -/
  interrupts : Interrupts

/-- What a transfer works on: the unit, the status and the memory. -/
structure Xfer where
  /-- The unit `p`. -/
  p : DiskUnit
  /-- The status of the controller. -/
  status : DiskStatus
  /-- The main memory. -/
  memory : MainMemory

namespace Xfer

/-- Load the memory address register. -/
def setLastMemoryAddress (x : Xfer) (paddr : Word) : Xfer :=
  { x with p := { x.p with lastMemoryAddress := paddr } }

/-- A command word was not read, or a page does not exist. -/
def setNonexistentMemoryError (x : Xfer) : Xfer :=
  { x with status := { x.status with nonexistentMemoryError := true } }

/-- The unit has a fault. -/
def setFault (x : Xfer) : Xfer := { x with p := { x.p with hasFault := true } }

end Xfer

/-- `perform_xfer`, the part that compares the page with the block read from the disk. -/
def compareBlock (buffer : Page) (paddr : Word) (x : Xfer) : Bool × Xfer :=
  let x := x.setLastMemoryAddress paddr
  match mainMemoryReadPage x.memory paddr with
  | some bufferCompare =>
    let x := x.setLastMemoryAddress (paddr + 255)
    if ∃ i, buffer i ≠ bufferCompare i then
      (true, { x with status := { x.status with readCompareDifference := true } })
    else (true, x)
  | none => (false, x.setNonexistentMemoryError)

/-- `perform_xfer`, the part that stores the block read from the disk. -/
def readBlock (buffer : Page) (paddr : Word) (x : Xfer) : Bool × Xfer :=
  let x := x.setLastMemoryAddress paddr
  match mainMemoryWritePage x.memory paddr buffer with
  | some memory => (true, { x.setLastMemoryAddress (paddr + 255) with memory := memory })
  | none => (false, x.setNonexistentMemoryError)

/-- `perform_xfer`, the part that writes the page to the disk. -/
def writeBlock (paddr : Word) (x : Xfer) : Bool × Xfer :=
  let x := x.setLastMemoryAddress paddr
  match mainMemoryReadPage x.memory paddr with
  | some buffer =>
    let x := x.setLastMemoryAddress (paddr + 255)
    match diskUnitWrite x.p buffer with
    | some p => (true, { x with p := p })
    | none => (false, x.setFault)
  | none => (false, x.setNonexistentMemoryError)

/-- `perform_xfer`, the transfer of one block. -/
def xferBlock (read compare : Bool) (paddr : Word) (x : Xfer) : Bool × Xfer :=
  if read then
    match diskUnitRead x.p with
    | some buffer => if compare then compareBlock buffer paddr x else readBlock buffer paddr x
    | none => (false, x.setFault)
  else writeBlock paddr x

/-- What a transfer of one block leaves. -/
structure BlockFrame (x x' : Xfer) : Prop where
  /-- The place of the unit. -/
  place : SamePlace x.p x'.p
  /-- The interrupt request. -/
  interruptRequest : x'.status.interruptRequest = x.status.interruptRequest
  /-- The activity. -/
  notActive : x'.status.notActive = x.status.notActive
  /-- The size of the memory. -/
  npages : x'.memory.npages = x.memory.npages

/-- A page written leaves the size of the memory. -/
theorem mainMemoryWritePage_npages {mm mm' : MainMemory} {paddr : Word} {buffer : Page}
    (h : mainMemoryWritePage mm paddr buffer = some mm') : mm'.npages = mm.npages := by
  unfold mainMemoryWritePage at h
  split at h
  · cases h
    rfl
  · cases h

/-- A block written leaves the place of the unit. -/
theorem diskUnitWrite_samePlace {p p' : DiskUnit} {buffer : Page}
    (h : diskUnitWrite p buffer = some p') : SamePlace p p' := by
  unfold diskUnitWrite at h
  split at h
  · cases h
  · cases h
    exact samePlace_update p _ _ _

namespace BlockFrame

/-- Two parts of a transfer. -/
theorem trans {x x' x'' : Xfer} (h : BlockFrame x x') (h' : BlockFrame x' x'') :
    BlockFrame x x'' where
  place := h.place.trans h'.place
  interruptRequest := h'.interruptRequest.trans h.interruptRequest
  notActive := h'.notActive.trans h.notActive
  npages := h'.npages.trans h.npages

/-- Other parts of the status. -/
theorem status (x : Xfer) (difference ccwCycle nonexistentMemoryError : Bool) :
    BlockFrame x { x with status := { x.status with
      readCompareDifference := difference
      ccwCycle := ccwCycle
      nonexistentMemoryError := nonexistentMemoryError } } :=
  ⟨samePlace_update x.p _ _ _, rfl, rfl, rfl⟩

/-- Loading the memory address register. -/
theorem setLastMemoryAddress (x : Xfer) (paddr : Word) :
    BlockFrame x (x.setLastMemoryAddress paddr) :=
  ⟨samePlace_update x.p _ _ _, rfl, rfl, rfl⟩

/-- A fault. -/
theorem setFault (x : Xfer) : BlockFrame x x.setFault :=
  ⟨samePlace_update x.p _ _ _, rfl, rfl, rfl⟩

/-- A memory error. -/
theorem setNonexistentMemoryError (x : Xfer) : BlockFrame x x.setNonexistentMemoryError :=
  status x _ _ _

end BlockFrame

/-- A comparison leaves its frame. -/
theorem blockFrame_compareBlock (buffer : Page) (paddr : Word) (x : Xfer) :
    BlockFrame x (compareBlock buffer paddr x).2 := by
  have haddress := BlockFrame.setLastMemoryAddress x paddr
  have hdone := haddress.trans (BlockFrame.setLastMemoryAddress _ (paddr + 255))
  unfold compareBlock
  dsimp only
  split
  · split
    · exact hdone.trans (BlockFrame.status _ _ _ _)
    · exact hdone
  · exact haddress.trans (BlockFrame.setNonexistentMemoryError _)

/-- A block stored leaves its frame. -/
theorem blockFrame_readBlock (buffer : Page) (paddr : Word) (x : Xfer) :
    BlockFrame x (readBlock buffer paddr x).2 := by
  have haddress := BlockFrame.setLastMemoryAddress x paddr
  have hdone := haddress.trans (BlockFrame.setLastMemoryAddress _ (paddr + 255))
  unfold readBlock
  dsimp only
  split
  · rename_i memory hmemory
    exact ⟨hdone.place, rfl, rfl, mainMemoryWritePage_npages hmemory⟩
  · exact haddress.trans (BlockFrame.setNonexistentMemoryError _)

/-- A block written leaves its frame. -/
theorem blockFrame_writeBlock (paddr : Word) (x : Xfer) :
    BlockFrame x (writeBlock paddr x).2 := by
  have haddress := BlockFrame.setLastMemoryAddress x paddr
  have hdone := haddress.trans (BlockFrame.setLastMemoryAddress _ (paddr + 255))
  unfold writeBlock
  dsimp only
  split
  · split
    · rename_i p hp
      exact ⟨hdone.place.trans (diskUnitWrite_samePlace hp), rfl, rfl, rfl⟩
    · exact hdone.trans (BlockFrame.setFault _)
  · exact haddress.trans (BlockFrame.setNonexistentMemoryError _)

/-- A transfer of one block leaves its frame. -/
theorem blockFrame_xferBlock (read compare : Bool) (paddr : Word) (x : Xfer) :
    BlockFrame x (xferBlock read compare paddr x).2 := by
  unfold xferBlock
  split
  · split
    · split
      · exact blockFrame_compareBlock _ _ _
      · exact blockFrame_readBlock _ _ _
    · exact BlockFrame.setFault x
  · exact blockFrame_writeBlock _ _

/-- The body of the loop of `perform_xfer` for the command word at `current_clp`,
up to the test for the last one: the command word, unless the transfer failed. -/
def xferCcw (read compare : Bool) (currentClp : Word) (x : Xfer) : Option Word × Xfer :=
  let x := x.setLastMemoryAddress currentClp
  let ccw := mainMemoryRead x.memory currentClp
  if ¬ccw.1 then
    (none, { x with status := { x.status with ccwCycle := true, nonexistentMemoryError := true } })
  else
    let r := xferBlock read compare (ccw.2 &&& 0x00FFFF00)
      { x with status := { x.status with ccwCycle := false } }
    (if r.1 then some ccw.2 else none, r.2)

/-- The body of the loop leaves the same frame. -/
theorem blockFrame_xferCcw (read compare : Bool) (currentClp : Word) (x : Xfer) :
    BlockFrame x (xferCcw read compare currentClp x).2 := by
  have haddress := BlockFrame.setLastMemoryAddress x currentClp
  unfold xferCcw
  dsimp only
  split
  · exact haddress.trans (BlockFrame.status _ _ _ _)
  · exact (haddress.trans (BlockFrame.status _ _ _ _)).trans (blockFrame_xferBlock _ _ _ _)

/-- The loop of `perform_xfer`, from the command word at `clp + clp_offset` on.
The offset has 16 bits and wraps. -/
def performXferLoop (read compare : Bool) (clp : Word) (clpOffset : HalfWord) (x : Xfer) :
    Bool × Xfer :=
  let r := xferCcw read compare (clp + clpOffset.setWidth 32) x
  match r.1 with
  | none => (false, r.2)
  | some ccw =>
    if ccw &&& 1 = 0 then (true, r.2)
    else if h : (diskUnitSeekNextLba r.2.p).1 = true then
      performXferLoop read compare clp (clpOffset + 1)
        { r.2 with p := (diskUnitSeekNextLba r.2.p).2 }
    else (false, { r.2 with p := (diskUnitSeekNextLba r.2.p).2 })
termination_by x.p.rank
decreasing_by
  exact Nat.lt_of_lt_of_eq (rank_diskUnitSeekNextLba h) (blockFrame_xferCcw _ _ _ _).place.rank

/-- `perform_xfer`. -/
def performXfer (read compare : Bool) (clp : Word) (x : Xfer) : Bool × Xfer :=
  performXferLoop read compare clp 0 { x with status := { x.status with
    readCompareDifference := false
    ccwCycle := false
    nonexistentMemoryError := false } }

/-- `(da >> 28) & 07`. -/
def unitNumber (da : Word) : Fin 8 := Fin.ofNat 8 (da >>> 28).toNat

/-- The fields of a disk address: cylinder, head and block. -/
def decodeDa (da : Word) : Word × Word × Word :=
  ((da >>> 16) &&& 0o7777, (da >>> 8) &&& 0o377, da &&& 0o377)

namespace DiskGlobals

/-- `SELECTED_UNIT_PTR()`. -/
def selectedUnit (g : DiskGlobals) : DiskUnit := g.diskUnits (unitNumber g.da)

/-- Change a unit. -/
def setUnit (g : DiskGlobals) (unit : Fin 8) (p : DiskUnit) : DiskGlobals :=
  { g with diskUnits := Function.update g.diskUnits unit p }

/-- Change the selected unit. -/
def onSelectedUnit (f : DiskUnit → DiskUnit) (g : DiskGlobals) : DiskGlobals :=
  g.setUnit (unitNumber g.da) (f g.selectedUnit)

/-- `assert_interrupt`. -/
def assertInterrupt (g : DiskGlobals) : DiskGlobals :=
  { g with
    status := { g.status with interruptRequest := true }
    interrupts := assertXbusInterrupt g.interrupts }

/-- `deassert_interrupt`. -/
def deassertInterrupt (g : DiskGlobals) : DiskGlobals :=
  { g with interrupts := deassertXbusInterrupt g.interrupts }

/-- `set_status_not_active`. -/
def setStatusNotActive (g : DiskGlobals) : DiskGlobals :=
  let g := { g with status := { g.status with notActive := true } }
  if g.doneInterruptEnable then g.assertInterrupt else g

/-- `set_status_active`. -/
def setStatusActive (g : DiskGlobals) : DiskGlobals :=
  { g with status := { g.status with notActive := false } }

/-- `reset_status`. -/
def resetStatus (g : DiskGlobals) : DiskGlobals :=
  setStatusNotActive { g with status := { g.status with
    readCompareDifference := false
    ccwCycle := false
    nonexistentMemoryError := false
    interruptRequest := false } }

/-- `reset`. -/
def reset (g : DiskGlobals) : DiskGlobals :=
  let g := resetStatus { g with
    doneInterruptEnable := false
    attentionInterruptEnable := false }
  { g with cmd := 0, clp := 0, da := 0 }

/-- The globals after `disk_controller_init`: what C starts with, reset. -/
def init (diskUnits : Fin 8 → DiskUnit) (memory : MainMemory) : DiskGlobals :=
  reset {
    cmd := 0
    clp := 0
    da := 0
    xferReq := ⟨false, 0, false, false, 0, 0, 0, 0⟩
    resetCondition := false
    status := ⟨false, false, false, false, false⟩
    doneInterruptEnable := false
    attentionInterruptEnable := false
    diskUnits := diskUnits
    memory := memory
    interrupts := ⟨0, false⟩ }

/-- Some unit has attention. -/
def anyAttention (g : DiskGlobals) : Bool := decide (∃ i, (g.diskUnits i).attention = true)

/-- `encode_status`. -/
def encodeStatus (g : DiskGlobals) : Word :=
  let bit (c : Bool) (n : ℕ) : Word := if c then (1 : Word) <<< n else 0
  let p := g.selectedUnit
  bit g.status.readCompareDifference 22 ||| bit g.status.ccwCycle 21 |||
    bit g.status.nonexistentMemoryError 20 ||| bit p.seekError 10 ||| bit (!p.online) 9 |||
    bit p.readOnly 7 ||| bit p.hasFault 6 ||| bit p.attention 2 |||
    bit g.status.interruptRequest 3 ||| bit g.anyAttention 1 ||| bit g.status.notActive 0

/-- `disk_controller_get_attention`. -/
def getAttention (g : DiskGlobals) : DiskGlobals :=
  if g.status.notActive && g.attentionInterruptEnable then g.assertInterrupt else g

/-- `disk_unit_raise_attention`, called for the unit of this number. -/
def raiseAttention (unit : Fin 8) (g : DiskGlobals) : DiskGlobals :=
  getAttention (g.setUnit unit { g.diskUnits unit with attention := true })

/-- `do_xfer`. -/
def doXfer (g : DiskGlobals) : DiskGlobals :=
  let q := g.xferReq
  if q.ready then
    let s := diskUnitSeek (g.diskUnits q.p) q.cylinder q.head q.block
    let g :=
      if s.1 then
        let x := (performXfer q.read q.compare q.clp ⟨s.2, g.status, g.memory⟩).2
        { g.setUnit q.p x.p with status := x.status, memory := x.memory, da := diskUnitDa x.p }
      else g.setUnit q.p s.2
    setStatusNotActive { g with xferReq := { g.xferReq with ready := false } }
  else g

/-- `submit_xfer`, up to the call of `do_xfer`. -/
def requestXfer (read compare : Bool) (g : DiskGlobals) : DiskGlobals :=
  let g := g.setStatusActive
  { g with xferReq := {
      ready := true
      p := unitNumber g.da
      read := read
      compare := compare
      clp := g.clp
      cylinder := (decodeDa g.da).1
      head := (decodeDa g.da).2.1
      block := (decodeDa g.da).2.2 } }

/-- `submit_xfer`, of the blocking build or of the other one. -/
def submitXfer (blocking read compare : Bool) (g : DiskGlobals) : DiskGlobals :=
  let g := g.requestXfer read compare
  if blocking then g.doXfer else g

/-- `start_write`. -/
def startWrite (blocking : Bool) (g : DiskGlobals) : DiskGlobals :=
  if g.selectedUnit.readOnly then g.onSelectedUnit ({ · with hasFault := true })
  else g.submitXfer blocking false false

/-- `start_seek`. What the seek returns is ignored. -/
def startSeek (g : DiskGlobals) : DiskGlobals :=
  let g := g.setStatusActive
  let a := decodeDa g.da
  let g := g.onSelectedUnit fun p => (diskUnitSeek p a.1 a.2.1 a.2.2).2
  setStatusNotActive (g.raiseAttention (unitNumber g.da))

/-- `start_recalibrate`. -/
def startRecalibrate (g : DiskGlobals) : DiskGlobals :=
  let g := g.setStatusActive
  let g := g.onSelectedUnit fun p =>
    { (diskUnitSeek p 0 0 0).2 with hasFault := false, seekError := false }
  setStatusNotActive (g.raiseAttention (unitNumber g.da))

/-- `start_fault_clear`. -/
def startFaultClear (g : DiskGlobals) : DiskGlobals :=
  setStatusNotActive (g.setStatusActive.onSelectedUnit ({ · with hasFault := false }))

/-- `start_at_ease`. -/
def startAtEase (g : DiskGlobals) : DiskGlobals :=
  setStatusNotActive (g.setStatusActive.onSelectedUnit ({ · with attention := false }))

/-- `start_offset_clear`. -/
def startOffsetClear (g : DiskGlobals) : DiskGlobals := setStatusNotActive g.setStatusActive

/-- The command 005 of `start`. -/
def startAtEaseCommand (g : DiskGlobals) : DiskGlobals :=
  let g := g.startAtEase
  let g := if g.cmd &&& 0o1000 ≠ 0 then g.startRecalibrate else g
  if g.cmd &&& 0o400 ≠ 0 then g.startFaultClear else g

/-- `start`. -/
def start (blocking : Bool) (g : DiskGlobals) : Except ErrCall DiskGlobals :=
  if ¬g.selectedUnit.online then .ok g
  else
    let command := g.cmd &&& 0o17
    if command = 0 then .ok (g.submitXfer blocking true false)
    else if command = 0o10 then .ok (g.submitXfer blocking true true)
    else if command = 0o11 then .ok (g.startWrite blocking)
    else if command = 0o2 then .error ⟨"read all not implemented", []⟩
    else if command = 0o13 then .error ⟨"write all not implemented", []⟩
    else if command = 0o4 then .ok g.startSeek
    else if command = 0o5 then .ok g.startAtEaseCommand
    else if command = 0o6 then .ok g.startOffsetClear
    else .error ⟨"disk-controller: start, cmd (%o) unknown", [g.cmd.toNat]⟩

/-- `disk_controller_read`. -/
def read (offset : Word) (g : DiskGlobals) : Except ErrCall Word :=
  if g.resetCondition then .ok 0
  else if offset = 0 then .ok g.encodeStatus
  else if offset = 1 then .ok g.selectedUnit.lastMemoryAddress
  else if offset = 2 then .ok g.da
  else if offset = 3 then .ok 0
  else .error ⟨"disk-controller: unknown read %o\n", [offset.toNat]⟩

/-- `disk_controller_write`, a command that is stored. -/
def storeCmd (v : Word) (g : DiskGlobals) : DiskGlobals :=
  let g := { g with
    cmd := v
    doneInterruptEnable := v.getLsbD 11
    attentionInterruptEnable := v.getLsbD 10 }
  if !g.doneInterruptEnable && !g.attentionInterruptEnable then g.deassertInterrupt else g

/-- `disk_controller_write`, the command register. -/
def writeCmd (v : Word) (g : DiskGlobals) : DiskGlobals :=
  if v = 0 then { g with cmd := 0, resetCondition := false }
  else if v = 0o16 then { g.reset with resetCondition := true }
  else if g.resetCondition then g
  else g.storeCmd v

/-- `disk_controller_write`. -/
def write (blocking : Bool) (offset v : Word) (g : DiskGlobals) : Except ErrCall DiskGlobals :=
  if offset = 0 then .ok (g.writeCmd v)
  else if offset = 1 then .ok (if g.resetCondition then g else { g with clp := v })
  else if offset = 2 then .ok (if g.resetCondition then g else { g with da := v })
  else if offset = 3 then if g.resetCondition then .ok g else g.start blocking
  else .error ⟨"disk-controller: unknown write %o\n", [offset.toNat]⟩

/-- What a START that returns leaves, by the command of the selected unit. -/
inductive Started (blocking : Bool) (g : DiskGlobals) : DiskGlobals → Prop
  | offline (honline : ¬g.selectedUnit.online) : Started blocking g g
  | read (honline : g.selectedUnit.online) (hcommand : g.cmd &&& 0o17 = 0) :
      Started blocking g (g.submitXfer blocking true false)
  | compare (honline : g.selectedUnit.online) (hcommand : g.cmd &&& 0o17 = 0o10) :
      Started blocking g (g.submitXfer blocking true true)
  | write (honline : g.selectedUnit.online) (hcommand : g.cmd &&& 0o17 = 0o11) :
      Started blocking g (g.startWrite blocking)
  | seek (honline : g.selectedUnit.online) (hcommand : g.cmd &&& 0o17 = 0o4) :
      Started blocking g g.startSeek
  | atEase (honline : g.selectedUnit.online) (hcommand : g.cmd &&& 0o17 = 0o5) :
      Started blocking g g.startAtEaseCommand
  | offsetClear (honline : g.selectedUnit.online) (hcommand : g.cmd &&& 0o17 = 0o6) :
      Started blocking g g.startOffsetClear

/-- The outcomes of START. -/
theorem started_of_start {blocking : Bool} {g g' : DiskGlobals} (h : g.start blocking = .ok g') :
    Started blocking g g' := by
  unfold start at h
  by_cases honline : ¬g.selectedUnit.online
  · rw [if_pos honline] at h
    cases h
    exact .offline honline
  rw [if_neg honline] at h
  dsimp only at h
  have honline := not_not.mp honline
  by_cases hread : g.cmd &&& 0o17 = 0
  · rw [if_pos hread] at h
    cases h
    exact .read honline hread
  rw [if_neg hread] at h
  by_cases hcompare : g.cmd &&& 0o17 = 0o10
  · rw [if_pos hcompare] at h
    cases h
    exact .compare honline hcompare
  rw [if_neg hcompare] at h
  by_cases hwrite : g.cmd &&& 0o17 = 0o11
  · rw [if_pos hwrite] at h
    cases h
    exact .write honline hwrite
  rw [if_neg hwrite] at h
  by_cases hreadAll : g.cmd &&& 0o17 = 0o2
  · rw [if_pos hreadAll] at h
    cases h
  rw [if_neg hreadAll] at h
  by_cases hwriteAll : g.cmd &&& 0o17 = 0o13
  · rw [if_pos hwriteAll] at h
    cases h
  rw [if_neg hwriteAll] at h
  by_cases hseek : g.cmd &&& 0o17 = 0o4
  · rw [if_pos hseek] at h
    cases h
    exact .seek honline hseek
  rw [if_neg hseek] at h
  by_cases hease : g.cmd &&& 0o17 = 0o5
  · rw [if_pos hease] at h
    cases h
    exact .atEase honline hease
  rw [if_neg hease] at h
  by_cases hoffset : g.cmd &&& 0o17 = 0o6
  · rw [if_pos hoffset] at h
    cases h
    exact .offsetClear honline hoffset
  · rw [if_neg hoffset] at h
    cases h

/-- One turn of `disk_controller_thread_run`. -/
def threadTurn (g : DiskGlobals) : DiskGlobals :=
  let g := g.doXfer
  { g with diskUnits := fun i =>
      if (g.diskUnits i).online then diskUnitRotate (g.diskUnits i) else g.diskUnits i }

end DiskGlobals

end Usim
