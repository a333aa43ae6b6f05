import Usim.Lib.Updates
import Usim.SoundUnits

/-!
# Transfers of the disk controller

A command list moves consecutive blocks of the disk to or from the pages that its
words name.
-/

namespace Usim

open Lib

/-- The page of a physical address. -/
def pageOf (paddr : Word) : Fin 16384 := ⟨_, pageNumber_lt paddr⟩

/-- The page that a command word names. -/
def targetPage (ccw : Word) : Fin 16384 := pageOf (ccw &&& 0x00FFFF00)

namespace Xfer

/-- One block is moved, from the disk when `read` and else to the disk. -/
def moveBlock (read : Bool) (ccw : Word) (x : Xfer) : Xfer where
  p := { x.p with
    lastMemoryAddress := (ccw &&& 0x00FFFF00) + 255
    mm := if read then x.p.mm
      else Function.update x.p.mm x.p.lba (x.memory.pages (targetPage ccw)) }
  status := { x.status with ccwCycle := false }
  memory :=
    if read then { x.memory with
      pages := Function.update x.memory.pages (targetPage ccw) (x.p.mm x.p.lba) }
    else x.memory

end Xfer

/-- A command word in populated memory, for a populated page and a block of the image,
moves the block. -/
theorem xferCcw_eq {read : Bool} {currentClp ccw : Word} {x : Xfer}
    (hccw : mainMemoryRead x.memory currentClp = (true, ccw))
    (hpage : (targetPage ccw).val < x.memory.npages) (hlba : ¬x.p.mmsz ≤ x.p.lba.toNat * 1024) :
    xferCcw read false currentClp x = (some ccw, x.moveBlock read ccw) := by
  unfold targetPage pageOf at hpage
  unfold xferCcw Xfer.moveBlock targetPage
  simp only [Xfer.setLastMemoryAddress, hccw]
  generalize ccw &&& 0x00FFFF00 = paddr at hpage ⊢
  cases read with
  | true =>
    simp [xferBlock, readBlock, diskUnitRead, hlba, mainMemoryWritePage, hpage,
      Xfer.setLastMemoryAddress, pageOf]
  | false =>
    simp [xferBlock, writeBlock, diskUnitWrite, hlba, mainMemoryReadPage, hpage,
      Xfer.setLastMemoryAddress, pageOf]

/-- The position that follows exists, unless the block is the last of the disk. -/
theorem nextPosition_inRange {p : DiskUnit} (h : p.InRange) (hlt : p.index + 1 < p.capacity) :
    (nextPosition p).1.toNat < p.ncylinders.toNat ∧ (nextPosition p).2.1.toNat < p.nheads.toNat ∧
      (nextPosition p).2.2.toNat < p.nblocksPerTrack.toNat := by
  obtain ⟨hcylinder, hhead, hsector⟩ := h
  have hone : (1 : Word).toNat = 1 := rfl
  have hzero : (0 : Word).toNat = 0 := rfl
  have hcylinders := p.ncylinders.isLt
  have hheads := p.nheads.isLt
  have hblocks := p.nblocksPerTrack.isLt
  have hsector' : (p.sector + 1).toNat = p.sector.toNat + 1 := by
    rw [BitVec.toNat_add]
    omega
  have hhead' : (p.head + 1).toNat = p.head.toNat + 1 := by
    rw [BitVec.toNat_add]
    omega
  have hcylinder' : (p.cylinder + 1).toNat = p.cylinder.toNat + 1 := by
    rw [BitVec.toNat_add]
    omega
  unfold nextPosition
  split_ifs with hlast hlastHead
  · have htrack : p.sector.toNat + 1 = p.nblocksPerTrack.toNat :=
      hsector'.symm.trans (congrArg BitVec.toNat hlast)
    have hcyl : p.head.toNat + 1 = p.nheads.toNat :=
      hhead'.symm.trans (congrArg BitVec.toNat hlastHead)
    have hindex : p.index + 1 =
        (p.cylinder.toNat + 1) * (p.nheads.toNat * p.nblocksPerTrack.toNat) := by
      rw [DiskUnit.index, ← htrack, ← hcyl]
      ring
    rw [hindex, DiskUnit.capacity, Nat.mul_assoc] at hlt
    have hnext := Nat.lt_of_mul_lt_mul_right hlt
    exact ⟨by rw [hcylinder']; exact hnext, by rw [hzero]; omega, by rw [hzero]; omega⟩
  · have htrack : p.sector.toNat + 1 = p.nblocksPerTrack.toNat :=
      hsector'.symm.trans (congrArg BitVec.toNat hlast)
    have hne : p.head.toNat + 1 ≠ p.nheads.toNat := by
      intro heq
      exact hlastHead (BitVec.eq_of_toNat_eq (hhead'.trans heq))
    exact ⟨hcylinder, by rw [hhead']; omega, by rw [hzero]; omega⟩
  · have hne : p.sector.toNat + 1 ≠ p.nblocksPerTrack.toNat := by
      intro heq
      exact hlast (BitVec.eq_of_toNat_eq (hsector'.trans heq))
    exact ⟨hcylinder, hhead, by rw [hsector']; omega⟩

/-- The seek to the block that follows. -/
theorem diskUnitSeekNextLba_of_lt {p : DiskUnit} (h : p.InRange)
    (hlt : p.index + 1 < p.capacity) : diskUnitSeekNextLba p = (true, { p with
      cylinder := (nextPosition p).1
      head := (nextPosition p).2.1
      sector := (nextPosition p).2.2
      lba := (nextPosition p).1 * p.nblocksPerCylinder +
        (nextPosition p).2.1 * p.nblocksPerTrack + (nextPosition p).2.2 }) := by
  obtain ⟨hcylinder, hhead, hsector⟩ := nextPosition_inRange h hlt
  exact diskUnitSeek_of_inRange (nextPosition_ne p) hcylinder hhead hsector

/-- The command list of `n` words at `clp`: it is held in populated memory, all its
words but the last ask for more, and their pages are populated. -/
structure CommandList (memory : MainMemory) (clp : Word) (ccw : ℕ → Word) (n : ℕ) : Prop where
  /-- There is a word. -/
  pos : 0 < n
  /-- The words are in memory. -/
  held : ∀ i < n, mainMemoryRead memory (clp + BitVec.ofNat 32 i) = (true, ccw i)
  /-- Bit 0 is clear in the last word only. -/
  more : ∀ i < n, ccw i &&& 1 = 0 ↔ i + 1 = n
  /-- The pages are populated. -/
  target : ∀ i < n, (targetPage (ccw i)).val < memory.npages

/-- The pages of the list are not among those that it is held in. -/
def TargetsApart (clp : Word) (ccw : ℕ → Word) (n : ℕ) : Prop :=
  ∀ i < n, ∀ j < n, targetPage (ccw i) ≠ pageOf (clp + BitVec.ofNat 32 j)

/-- A page that does not hold the word may be replaced. -/
theorem mainMemoryRead_update {memory : MainMemory} {paddr : Word} {page : Fin 16384}
    (buffer : Page) (h : page ≠ pageOf paddr) :
    mainMemoryRead { memory with pages := Function.update memory.pages page buffer } paddr =
      mainMemoryRead memory paddr := by
  have hword : MainMemory.word
      { memory with pages := Function.update memory.pages page buffer } paddr =
      memory.word paddr := by
    show Function.update memory.pages page buffer (pageOf paddr) _ = memory.pages (pageOf paddr) _
    rw [Function.update_of_ne h.symm]
  unfold mainMemoryRead
  rw [hword]

/-- A transfer before its word `i`. -/
structure AtWord (read : Bool) (clp : Word) (ccw : ℕ → Word) (n start i : ℕ) (x : Xfer) :
    Prop where
  /-- The list. -/
  list : CommandList x.memory clp ccw n
  /-- What is read does not change the list. -/
  apart : read = true → TargetsApart clp ccw n
  /-- The unit. -/
  drive : Drive x.p
  /-- The unit is on the block. -/
  positioned : x.p.Positioned
  /-- It is the block for this word. -/
  index : x.p.index = start + i
  /-- The blocks exist. -/
  blocks : start + n ≤ x.p.capacity

/-- The blocks `l` from `start` on have been moved, and nothing else has changed but
the position and the memory address register. -/
structure Moved (read : Bool) (ccw : ℕ → Word) (start : ℕ) (l : List ℕ) (x x' : Xfer) : Prop where
  /-- What was read is in memory. -/
  memory : x'.memory = if read then { x.memory with
    pages := updates x.memory.pages
      (l.map fun j => (targetPage (ccw j), x.p.mm (BitVec.ofNat 32 (start + j)))) } else x.memory
  /-- What was written is on the disk. -/
  mm : x'.p.mm = if read then x.p.mm else updates x.p.mm
    (l.map fun j => (BitVec.ofNat 32 (start + j), x.memory.pages (targetPage (ccw j))))
  /-- The drive. -/
  drive : SameDrive x.p x'.p
  /-- The seek error. -/
  seekError : x'.p.seekError = x.p.seekError
  /-- The fault. -/
  hasFault : x'.p.hasFault = x.p.hasFault
  /-- The status. -/
  status : x'.status = { x.status with ccwCycle := false }

/-- A block moved, and others after it. -/
theorem Moved.cons {read : Bool} {ccw : ℕ → Word} {start i : ℕ} {l : List ℕ} {x x' x'' : Xfer}
    (h : Moved read ccw start [i] x x') (h' : Moved read ccw start l x' x'') :
    Moved read ccw start (i :: l) x x'' := by
  refine ⟨?_, ?_, h.drive.trans h'.drive, h'.seekError.trans h.seekError,
    h'.hasFault.trans h.hasFault, ?_⟩
  · rw [h'.memory, h.memory, h.mm]
    cases read <;> rfl
  · rw [h'.mm, h.memory, h.mm]
    cases read <;> rfl
  · rw [h'.status, h.status]

namespace AtWord

variable {read : Bool} {clp : Word} {ccw : ℕ → Word} {n start i : ℕ} {x : Xfer}

/-- The block for the word. -/
theorem lba (h : AtWord read clp ccw n start i x) :
    x.p.lba = BitVec.ofNat 32 (start + i) := by
  rw [← h.index, ← h.drive.blockNumber_eq_index, ← h.positioned.lba, BitVec.ofNat_toNat,
    BitVec.setWidth_eq]

/-- The block is in the image. -/
theorem within (h : AtWord read clp ccw n start i x) : ¬x.p.mmsz ≤ x.p.lba.toNat * 1024 := by
  have hbound := (h.drive.positionLaw h.positioned).within
  omega

/-- The block for the word is moved. -/
theorem moved_moveBlock (h : AtWord read clp ccw n start i x) :
    Moved read ccw start [i] x (x.moveBlock read (ccw i)) := by
  have hlba := h.lba
  refine ⟨?_, ?_, (samePlace_update x.p _ _ _).toSameDrive, rfl, rfl, rfl⟩
  · simp only [Xfer.moveBlock, List.map_cons, List.map_nil, updates_cons, updates_nil, hlba]
  · simp only [Xfer.moveBlock, List.map_cons, List.map_nil, updates_cons, updates_nil, hlba]

/-- The list is the same after the block was moved. -/
theorem list_moveBlock (h : AtWord read clp ccw n start i x) (hi : i < n) :
    CommandList (x.moveBlock read (ccw i)).memory clp ccw n := by
  cases hread : read with
  | false => exact h.list
  | true =>
    refine ⟨h.list.pos, fun j hj => ?_, h.list.more, h.list.target⟩
    rw [← h.list.held j hj]
    exact mainMemoryRead_update _ (h.apart hread i hi j hj)

/-- The word is fetched and its block is moved. -/
theorem xferCcw_eq (h : AtWord read clp ccw n start i x) (hi : i < n) (hn : n ≤ 2 ^ 16) :
    xferCcw read false (clp + (BitVec.ofNat 16 i).setWidth 32) x =
      (some (ccw i), x.moveBlock read (ccw i)) := by
  have hoffset : (BitVec.ofNat 16 i).setWidth 32 = BitVec.ofNat 32 i := by
    apply BitVec.eq_of_toNat_eq
    rw [BitVec.toNat_setWidth, BitVec.toNat_ofNat, BitVec.toNat_ofNat]
    omega
  rw [hoffset]
  exact Usim.xferCcw_eq (h.list.held i hi) (h.list.target i hi) h.within

/-- Before the next word the unit has moved on to the next block. -/
theorem next (h : AtWord read clp ccw n start i x) (hi : i + 1 < n) :
    (diskUnitSeekNextLba (x.moveBlock read (ccw i)).p).1 = true ∧
      AtWord read clp ccw n start (i + 1) { x.moveBlock read (ccw i) with
        p := (diskUnitSeekNextLba (x.moveBlock read (ccw i)).p).2 } ∧
      Moved read ccw start [i] x { x.moveBlock read (ccw i) with
        p := (diskUnitSeekNextLba (x.moveBlock read (ccw i)).p).2 } := by
  have hplace : SamePlace x.p (x.moveBlock read (ccw i)).p := samePlace_update x.p _ _ _
  have hdrive := hplace.toSameDrive.drive h.drive
  have hpositioned := hplace.positioned h.positioned
  have hmoved := h.moved_moveBlock
  have hindex : (x.moveBlock read (ccw i)).p.index = start + i := h.index
  have hcapacity : (x.moveBlock read (ccw i)).p.capacity = x.p.capacity := rfl
  have hblocks := h.blocks
  have hseek := diskUnitSeekNextLba_of_lt hpositioned.inRange (by omega)
  have htrue : (diskUnitSeekNextLba (x.moveBlock read (ccw i)).p).1 = true := by rw [hseek]
  obtain ⟨-, hnext⟩ := diskUnitSeekNextLba_index htrue
  have hsame := sameDrive_diskUnitSeek (x.moveBlock read (ccw i)).p
    (nextPosition (x.moveBlock read (ccw i)).p).1 (nextPosition (x.moveBlock read (ccw i)).p).2.1
    (nextPosition (x.moveBlock read (ccw i)).p).2.2
  refine ⟨htrue, ?_, ?_⟩
  · refine ⟨h.list_moveBlock (by omega), h.apart, hsame.drive hdrive,
      hdrive.positioned_diskUnitSeek hpositioned _ _ _, ?_, ?_⟩
    · exact (hnext hpositioned.inRange).trans (by omega)
    · rw [hseek]
      exact h.blocks
  · refine ⟨hmoved.memory, ?_, hmoved.drive.trans hsame, ?_, ?_, hmoved.status⟩
    · rw [hseek]
      exact hmoved.mm
    · rw [hseek]
      exact hmoved.seekError
    · rw [hseek]
      exact hmoved.hasFault

end AtWord

/-- A transfer from its word `i` on moves the blocks for the words that remain. -/
theorem performXferLoop_eq {read : Bool} {clp : Word} {ccw : ℕ → Word} {n start : ℕ}
    (hn : n ≤ 2 ^ 16) (k i : ℕ) (x : Xfer) (hk : i + k + 1 = n)
    (h : AtWord read clp ccw n start i x) :
    ∃ x', performXferLoop read false clp (BitVec.ofNat 16 i) x = (true, x') ∧
      Moved read ccw start (List.range' i (k + 1)) x x' ∧ x'.p.Positioned ∧
      x'.p.index = start + (n - 1) ∧
      x'.p.lastMemoryAddress = (ccw (n - 1) &&& 0x00FFFF00) + 255 := by
  have hi : i < n := by omega
  induction k generalizing i x with
  | zero =>
    have hlast : ccw i &&& 1 = 0 := (h.list.more i hi).mpr (by omega)
    have hin : n - 1 = i := by omega
    refine ⟨x.moveBlock read (ccw i), ?_, h.moved_moveBlock, ?_, ?_, ?_⟩
    · rw [performXferLoop, h.xferCcw_eq hi hn]
      simp only [if_pos hlast]
    · exact (samePlace_update x.p _ _ _ : SamePlace x.p (x.moveBlock read (ccw i)).p).positioned
        h.positioned
    · rw [hin]
      exact h.index
    · rw [hin]
      rfl
  | succ k ih =>
    have hmore : ¬ccw i &&& 1 = 0 := fun h0 => by
      have := (h.list.more i hi).mp h0
      omega
    obtain ⟨hseek, hnext, hmoved⟩ := h.next (by omega)
    obtain ⟨x', hloop, hrest, hfinal⟩ := ih (i + 1) _ (by omega) hnext (by omega)
    refine ⟨x', ?_, hmoved.cons hrest, hfinal⟩
    rw [performXferLoop, h.xferCcw_eq hi hn]
    have hoffset : BitVec.ofNat 16 i + 1 = BitVec.ofNat 16 (i + 1) := by
      apply BitVec.eq_of_toNat_eq
      simp [BitVec.toNat_add]
    simp only [if_neg hmore, dif_pos hseek, hoffset]
    exact hloop

/-- The fields of a disk address, put together. -/
theorem toNat_diskUnitDa {p : DiskUnit} (hunit : p.unit.toNat < 8)
    (hcylinder : p.cylinder.toNat < 2 ^ 12) (hhead : p.head.toNat < 2 ^ 8)
    (hsector : p.sector.toNat < 2 ^ 8) :
    (diskUnitDa p).toNat = p.unit.toNat * 2 ^ 28 + (p.cylinder.toNat * 2 ^ 16 +
      (p.head.toNat * 2 ^ 8 + p.sector.toNat)) := by
  have hlow := toNat_shiftLeft_or p.head p.sector hsector (by omega)
  have hmiddle := toNat_shiftLeft_or p.cylinder ((p.head <<< 8) ||| p.sector) (n := 16)
    (by omega) (by omega)
  rw [diskUnitDa, BitVec.or_assoc, BitVec.or_assoc, toNat_shiftLeft_or _ _ (by omega) (by omega),
    hmiddle, hlow]

/-- The disk address register tells the position of the unit. -/
theorem decodeDa_diskUnitDa {p : DiskUnit} (hunit : p.unit.toNat < 8)
    (hcylinder : p.cylinder.toNat < 2 ^ 12) (hhead : p.head.toNat < 2 ^ 8)
    (hsector : p.sector.toNat < 2 ^ 8) :
    unitNumber (diskUnitDa p) = Fin.ofNat 8 p.unit.toNat ∧
      decodeDa (diskUnitDa p) = (p.cylinder, p.head, p.sector) := by
  have hda := toNat_diskUnitDa hunit hcylinder hhead hsector
  constructor
  · rw [unitNumber, toNat_shiftRight, hda]
    congr 1
    omega
  refine Prod.ext ?_ (Prod.ext ?_ ?_)
  · apply BitVec.eq_of_toNat_eq
    show ((diskUnitDa p >>> 16) &&& 0o7777).toNat = p.cylinder.toNat
    rw [toNat_and_mask _ _ (n := 12) rfl, toNat_shiftRight, hda]
    omega
  · apply BitVec.eq_of_toNat_eq
    show ((diskUnitDa p >>> 8) &&& 0o377).toNat = p.head.toNat
    rw [toNat_and_mask _ _ (n := 8) rfl, toNat_shiftRight, hda]
    omega
  · apply BitVec.eq_of_toNat_eq
    show (diskUnitDa p &&& 0o377).toNat = p.sector.toNat
    rw [toNat_and_mask _ _ (n := 8) rfl, hda]
    omega

namespace DiskGlobals

/-- The block at the disk address. -/
def startBlock (g : DiskGlobals) : ℕ :=
  g.selectedUnit.blockNumber (decodeDa g.da).1 (decodeDa g.da).2.1 (decodeDa g.da).2.2

/-- START of such a command can move the blocks of the list: the unit is online, the
disk address can be sought, and the blocks from there on exist. -/
structure TransferReady (g : DiskGlobals) (command : Word) (ccw : ℕ → Word) (n : ℕ) : Prop where
  /-- The controller is not being reset. -/
  reset : g.resetCondition = false
  /-- The command. -/
  command : g.cmd &&& 0o17 = command
  /-- The unit is online. -/
  online : g.selectedUnit.online = true
  /-- The unit. -/
  sound : SoundUnit (unitNumber g.da) g.selectedUnit
  /-- The cylinder exists. -/
  cylinder : (decodeDa g.da).1.toNat < g.selectedUnit.ncylinders.toNat
  /-- The head exists. -/
  head : (decodeDa g.da).2.1.toNat < g.selectedUnit.nheads.toNat
  /-- The block on the track exists. -/
  sector : (decodeDa g.da).2.2.toNat < g.selectedUnit.nblocksPerTrack.toNat
  /-- The command list. -/
  list : CommandList g.memory g.clp ccw n
  /-- The blocks exist. -/
  blocks : g.startBlock + n ≤ g.selectedUnit.capacity

/-- A transfer of `n` blocks was completed: the registers tell the last one, and the
errors are those that the drive had before. -/
structure TransferDone (g g' : DiskGlobals) (ccw : ℕ → Word) (n : ℕ) : Prop where
  /-- The unit. -/
  unit : unitNumber g'.da = unitNumber g.da
  /-- The drive. -/
  drive : SameDrive g.selectedUnit g'.selectedUnit
  /-- The block. -/
  da : g'.startBlock = g.startBlock + (n - 1)
  /-- The position of the block is in the ranges of the unit. -/
  inRange : (decodeDa g'.da).1.toNat < g.selectedUnit.ncylinders.toNat ∧
    (decodeDa g'.da).2.1.toNat < g.selectedUnit.nheads.toNat ∧
    (decodeDa g'.da).2.2.toNat < g.selectedUnit.nblocksPerTrack.toNat
  /-- The memory address register. -/
  lastMemoryAddress :
    g'.selectedUnit.lastMemoryAddress = (ccw (n - 1) &&& 0x00FFFF00) + 255
  /-- The errors. -/
  errors : statusErrors g'.encodeStatus =
    ⟨false, false, false, g.selectedUnit.seekError, false, g.selectedUnit.hasFault⟩

/-- The blocks were read: for each page the last one that a word names it for. -/
structure BlocksRead (g g' : DiskGlobals) (ccw : ℕ → Word) (n : ℕ) : Prop where
  /-- The pages that are named. -/
  pages : ∀ i < n, (∀ j, i < j → j < n → targetPage (ccw j) ≠ targetPage (ccw i)) →
    g'.memory.pages (targetPage (ccw i)) =
      g.selectedUnit.mm (BitVec.ofNat 32 (g.startBlock + i))
  /-- The other pages. -/
  others : ∀ page, (∀ i < n, targetPage (ccw i) ≠ page) →
    g'.memory.pages page = g.memory.pages page
  /-- The size of the memory. -/
  npages : g'.memory.npages = g.memory.npages
  /-- The disks. -/
  mm : ∀ unit, (g'.diskUnits unit).mm = (g.diskUnits unit).mm

/-- The blocks were written. -/
structure BlocksWritten (g g' : DiskGlobals) (ccw : ℕ → Word) (n : ℕ) : Prop where
  /-- The blocks. -/
  blocks : ∀ i < n, g'.selectedUnit.mm (BitVec.ofNat 32 (g.startBlock + i)) =
    g.memory.pages (targetPage (ccw i))
  /-- The other blocks of the unit. -/
  others : ∀ block, (∀ i < n, BitVec.ofNat 32 (g.startBlock + i) ≠ block) →
    g'.selectedUnit.mm block = g.selectedUnit.mm block
  /-- The other units. -/
  units : ∀ unit ≠ unitNumber g.da, g'.diskUnits unit = g.diskUnits unit
  /-- The memory. -/
  memory : g'.memory = g.memory

/-- The seek to the disk address succeeds, and leaves the errors. -/
theorem TransferReady.seek {command : Word} {g : DiskGlobals} {ccw : ℕ → Word} {n : ℕ}
    (h : g.TransferReady command ccw n) : ∃ p, diskUnitSeek g.selectedUnit (decodeDa g.da).1
        (decodeDa g.da).2.1 (decodeDa g.da).2.2 = (true, p) ∧
      SameDrive g.selectedUnit p ∧ p.Positioned ∧ p.index = g.startBlock ∧
      p.mm = g.selectedUnit.mm ∧ p.seekError = g.selectedUnit.seekError ∧
      p.hasFault = g.selectedUnit.hasFault := by
  have hdrive := h.sound.toDrive
  by_cases hhere : (decodeDa g.da).1 = g.selectedUnit.cylinder ∧
      (decodeDa g.da).2.1 = g.selectedUnit.head ∧ (decodeDa g.da).2.2 = g.selectedUnit.sector
  · refine ⟨g.selectedUnit, if_pos hhere, .refl _, h.sound.positioned, ?_, rfl, rfl, rfl⟩
    rw [← hdrive.blockNumber_eq_index, startBlock, hhere.1, hhere.2.1, hhere.2.2]
  · have hseek := diskUnitSeek_of_inRange hhere h.cylinder h.head h.sector
    have hsame := sameDrive_diskUnitSeek g.selectedUnit (decodeDa g.da).1 (decodeDa g.da).2.1
      (decodeDa g.da).2.2
    obtain ⟨hpositioned, hlba, -⟩ := hdrive.seek h.sound.positioned (congrArg Prod.fst hseek)
    rw [hseek] at hsame hpositioned hlba
    refine ⟨_, hseek, hsame, hpositioned, ?_, rfl, rfl, rfl⟩
    rw [← (hsame.drive hdrive).blockNumber_eq_index, ← hpositioned.lba, hlba, startBlock]

/-- A controller that becomes idle changes its status and the interrupts. -/
theorem setStatusNotActive_eq (g : DiskGlobals) : ∃ interruptRequest interrupts,
    g.setStatusNotActive = { g with
      status := { g.status with notActive := true, interruptRequest := interruptRequest }
      interrupts := interrupts } := by
  unfold setStatusNotActive
  dsimp only
  split
  · exact ⟨_, _, rfl⟩
  · exact ⟨_, _, rfl⟩

/-- The status when a transfer begins. -/
def startStatus (g : DiskGlobals) : DiskStatus :=
  { g.status with
    readCompareDifference := false
    ccwCycle := false
    nonexistentMemoryError := false
    notActive := false }

/-- The disk address after a transfer tells its unit and where that is. -/
theorem decodeDa_of_sameDrive {g : DiskGlobals} {command : Word} {ccw : ℕ → Word} {n : ℕ}
    (h : g.TransferReady command ccw n) {p : DiskUnit} (hsame : SameDrive g.selectedUnit p)
    (hp : p.Positioned) : unitNumber (diskUnitDa p) = unitNumber g.da ∧
      decodeDa (diskUnitDa p) = (p.cylinder, p.head, p.sector) := by
  have hdrive := hsame.drive h.sound.toDrive
  have hsmall := (unitNumber g.da).isLt
  have hunit : p.unit.toNat = (unitNumber g.da).val := by
    rw [hsame.unit, h.sound.unit, BitVec.toNat_ofNat]
    omega
  obtain ⟨hnumber, hda⟩ := decodeDa_diskUnitDa (p := p) (hunit ▸ hsmall)
    (hp.inRange.cylinder.trans_le hdrive.ncylinders_le)
    (hp.inRange.head.trans_le hdrive.nheads_le)
    (hp.inRange.sector.trans_le hdrive.nblocksPerTrack_le)
  refine ⟨?_, hda⟩
  rw [hnumber, hunit]
  exact Fin.ext (Nat.mod_eq_of_lt hsmall)

/-- START of a transfer seeks to the disk address and performs the transfer from there. -/
theorem submitXfer_performs (read : Bool) {command : Word} {g : DiskGlobals} {ccw : ℕ → Word}
    {n : ℕ} (h : g.TransferReady command ccw n) :
    ∃ p, SameDrive g.selectedUnit p ∧ p.Positioned ∧ p.index = g.startBlock ∧
      p.mm = g.selectedUnit.mm ∧ p.seekError = g.selectedUnit.seekError ∧
      p.hasFault = g.selectedUnit.hasFault ∧
      ∀ r, performXferLoop read false g.clp 0 ⟨p, g.startStatus, g.memory⟩ = r →
        (g.submitXfer true read false).selectedUnit = r.2.p ∧
        ∃ xferReq interruptRequest interrupts, g.submitXfer true read false = { g with
          xferReq := xferReq
          da := diskUnitDa r.2.p
          diskUnits := Function.update g.diskUnits (unitNumber g.da) r.2.p
          memory := r.2.memory
          status := { r.2.status with notActive := true, interruptRequest := interruptRequest }
          interrupts := interrupts } := by
  obtain ⟨p, hseek, hsame, hpositioned, hindex, hmm, hseekError, hhasFault⟩ := h.seek
  refine ⟨p, hsame, hpositioned, hindex, hmm, hseekError, hhasFault, ?_⟩
  rintro r hloop
  have hdrive : SameDrive g.selectedUnit r.2.p := by
    have hframe := performXferLoop_frame read false g.clp 0 ⟨p, g.startStatus, g.memory⟩
    rw [hloop] at hframe
    exact hsame.trans hframe.1
  have hpositioned' : r.2.p.Positioned := by
    have hkeep := positioned_performXferLoop read false g.clp 0 ⟨p, g.startStatus, g.memory⟩
      (hsame.drive h.sound.toDrive) hpositioned
    rwa [hloop] at hkeep
  obtain ⟨hnumber, -⟩ := decodeDa_of_sameDrive h hdrive hpositioned'
  obtain ⟨interruptRequest, interrupts, hidle⟩ := setStatusNotActive_eq
    { g.requestXfer read false with
      diskUnits := Function.update g.diskUnits (unitNumber g.da) r.2.p
      status := r.2.status
      memory := r.2.memory
      da := diskUnitDa r.2.p
      xferReq := { (g.requestXfer read false).xferReq with ready := false } }
  have hxfer : g.submitXfer true read false = setStatusNotActive { g.requestXfer read false with
      diskUnits := Function.update g.diskUnits (unitNumber g.da) r.2.p
      status := r.2.status
      memory := r.2.memory
      da := diskUnitDa r.2.p
      xferReq := { (g.requestXfer read false).xferReq with ready := false } } := by
    have hstep : diskUnitSeek ((g.requestXfer read false).diskUnits (unitNumber g.da))
        (decodeDa g.da).1 (decodeDa g.da).2.1 (decodeDa g.da).2.2 = (true, p) := hseek
    show (g.requestXfer read false).doXfer = _
    unfold doXfer
    simp only [requestXfer, setStatusActive] at hstep ⊢
    simp only [hstep, if_true, performXfer]
    simp only [startStatus] at hloop
    rw [hloop]
    rfl
  refine ⟨?_, _, interruptRequest, interrupts, hxfer.trans hidle⟩
  rw [hxfer, hidle, selectedUnit]
  show Function.update g.diskUnits (unitNumber g.da) r.2.p (unitNumber (diskUnitDa r.2.p)) = r.2.p
  rw [hnumber, Function.update_self]

/-- START of a transfer moves the blocks of its list. -/
theorem submitXfer_eq (read : Bool) {command : Word} {g : DiskGlobals} {ccw : ℕ → Word} {n : ℕ}
    (h : g.TransferReady command ccw n) (hn : n ≤ 2 ^ 16)
    (hapart : read = true → TargetsApart g.clp ccw n) :
    ∃ x' : Xfer, Moved read ccw g.startBlock (List.range n)
        ⟨g.selectedUnit, g.startStatus, g.memory⟩ x' ∧
      x'.p.Positioned ∧ x'.p.index = g.startBlock + (n - 1) ∧
      x'.p.lastMemoryAddress = (ccw (n - 1) &&& 0x00FFFF00) + 255 ∧
      (g.submitXfer true read false).selectedUnit = x'.p ∧
      ∃ xferReq interruptRequest interrupts, g.submitXfer true read false = { g with
        xferReq := xferReq
        da := diskUnitDa x'.p
        diskUnits := Function.update g.diskUnits (unitNumber g.da) x'.p
        memory := x'.memory
        status := { x'.status with notActive := true, interruptRequest := interruptRequest }
        interrupts := interrupts } := by
  obtain ⟨p, hsame, hpositioned, hindex, hmm, hseekError, hhasFault, hresult⟩ :=
    submitXfer_performs read h
  have hcapacity : p.capacity = g.selectedUnit.capacity := by
    unfold DiskUnit.capacity
    rw [hsame.ncylinders, hsame.nheads, hsame.nblocksPerTrack]
  have hat : AtWord read g.clp ccw n g.startBlock 0 ⟨p, g.startStatus, g.memory⟩ :=
    ⟨h.list, hapart, hsame.drive h.sound.toDrive, hpositioned, hindex, hcapacity ▸ h.blocks⟩
  have hpos := h.list.pos
  obtain ⟨x', hloop, hmoved, hpositioned', hindex', hlast⟩ :=
    performXferLoop_eq hn (n - 1) 0 _ (by omega) hat
  rw [Nat.sub_add_cancel hpos, ← List.range_eq_range'] at hmoved
  refine ⟨x', ?_, hpositioned', hindex', hlast, hresult _ hloop⟩
  refine ⟨hmoved.memory.trans ?_, hmoved.mm.trans ?_, hsame.trans hmoved.drive,
    hmoved.seekError.trans hseekError, hmoved.hasFault.trans hhasFault, hmoved.status⟩
  · simp only [hmm]
  · simp only [hmm]

/-- START of a read. -/
theorem write_start_read {g : DiskGlobals} {ccw : ℕ → Word} {n : ℕ} (h : g.TransferReady 0 ccw n)
    (v : Word) : g.write true 3 v = .ok (g.submitXfer true true false) := by
  have honline : ¬¬g.selectedUnit.online = true := not_not.mpr h.online
  unfold write start
  simp only [h.reset, h.command, if_neg honline]
  rfl

/-- START of a write. -/
theorem write_start_write {g : DiskGlobals} {ccw : ℕ → Word} {n : ℕ}
    (h : g.TransferReady 0o11 ccw n) (v : Word) :
    g.write true 3 v = .ok (g.submitXfer true false false) := by
  have honline : ¬¬g.selectedUnit.online = true := not_not.mpr h.online
  unfold write start startWrite
  simp only [h.reset, h.command, if_neg honline, h.sound.readOnly]
  rfl

/-- What the registers tell after a transfer. -/
theorem transferDone_submitXfer (read : Bool) {command : Word} {g : DiskGlobals}
    {ccw : ℕ → Word} {n : ℕ} (h : g.TransferReady command ccw n) (hn : n ≤ 2 ^ 16)
    (hapart : read = true → TargetsApart g.clp ccw n) :
    TransferDone g (g.submitXfer true read false) ccw n := by
  obtain ⟨x', hmoved, hpositioned, hindex, hlast, hselected, xferReq, interruptRequest, interrupts,
    heq⟩ := submitXfer_eq read h hn hapart
  have hdrive := hmoved.drive.drive h.sound.toDrive
  obtain ⟨hnumber, hda⟩ := decodeDa_of_sameDrive h hmoved.drive hpositioned
  have hda' : (g.submitXfer true read false).da = diskUnitDa x'.p := by rw [heq]
  refine ⟨?_, ?_, ?_, ?_, ?_, ?_⟩
  · rw [hda', hnumber]
  · rw [hselected]
    exact hmoved.drive
  · rw [startBlock, hselected, hda', hda]
    exact hdrive.blockNumber_eq_index.trans hindex
  · rw [hda', hda, ← hmoved.drive.ncylinders, ← hmoved.drive.nheads,
      ← hmoved.drive.nblocksPerTrack]
    exact ⟨hpositioned.inRange.cylinder, hpositioned.inRange.head, hpositioned.inRange.sector⟩
  · rw [hselected, hlast]
  · rw [statusErrors_encodeStatus, hselected, hmoved.seekError, hmoved.hasFault,
      hmoved.drive.online, h.online, heq, hmoved.status]
    rfl

/-- START of a read reads the blocks. -/
theorem blocksRead_submitXfer {command : Word} {g : DiskGlobals} {ccw : ℕ → Word} {n : ℕ}
    (h : g.TransferReady command ccw n) (hn : n ≤ 2 ^ 16) (hapart : TargetsApart g.clp ccw n) :
    BlocksRead g (g.submitXfer true true false) ccw n := by
  obtain ⟨x', hmoved, -, -, -, -, xferReq, interruptRequest, interrupts, heq⟩ :=
    submitXfer_eq true h hn fun _ => hapart
  have hmemory : (g.submitXfer true true false).memory = x'.memory := by rw [heq]
  refine ⟨?_, ?_, ?_, ?_⟩
  · intro i hi hlast
    rw [hmemory, hmoved.memory]
    exact updates_range_last hi fun j hij hj => hlast j hij hj
  · intro page hpage
    rw [hmemory, hmoved.memory]
    exact updates_range_of_ne hpage
  · rw [hmemory, hmoved.memory]
    rfl
  · intro unit
    rw [heq]
    by_cases hunit : unit = unitNumber g.da
    · subst unit
      show (Function.update g.diskUnits (unitNumber g.da) x'.p (unitNumber g.da)).mm = _
      rw [Function.update_self, hmoved.mm]
      rfl
    · show (Function.update g.diskUnits (unitNumber g.da) x'.p unit).mm = _
      rw [Function.update_of_ne hunit]

/-- START of a write writes the blocks. -/
theorem blocksWritten_submitXfer {command : Word} {g : DiskGlobals} {ccw : ℕ → Word} {n : ℕ}
    (h : g.TransferReady command ccw n) (hn : n ≤ 2 ^ 16) :
    BlocksWritten g (g.submitXfer true false false) ccw n := by
  obtain ⟨x', hmoved, -, -, -, hselected, xferReq, interruptRequest, interrupts, heq⟩ :=
    submitXfer_eq false h hn nofun
  have hcapacity := h.sound.capacity_lt
  have hblocks := h.blocks
  refine ⟨?_, ?_, ?_, ?_⟩
  · intro i hi
    rw [hselected, hmoved.mm]
    refine updates_range_last hi fun j hij hj heq' => ?_
    have hnat := congrArg BitVec.toNat heq'
    rw [BitVec.toNat_ofNat, BitVec.toNat_ofNat] at hnat
    omega
  · intro block hblock
    rw [hselected, hmoved.mm]
    exact updates_range_of_ne hblock
  · intro unit hunit
    rw [heq]
    exact Function.update_of_ne hunit _ _
  · rw [heq]
    exact hmoved.memory

end DiskGlobals

/-- The transfer left an error. -/
def Xfer.Failed (x : Xfer) : Prop :=
  x.status.nonexistentMemoryError = true ∨ x.p.hasFault = true ∨ x.p.seekError = true

/-- A page written to the disk leaves the memory, or fails with an error. -/
theorem writeBlock_cases (paddr : Word) (x : Xfer) :
    (writeBlock paddr x).2.memory = x.memory ∧
      ((writeBlock paddr x).1 = true ∨
        (writeBlock paddr x).1 = false ∧ (writeBlock paddr x).2.Failed) := by
  unfold writeBlock
  simp only
  rcases mainMemoryReadPage (x.setLastMemoryAddress paddr).memory paddr with _ | buffer
  · exact ⟨rfl, .inr ⟨rfl, .inl rfl⟩⟩
  · simp only
    rcases diskUnitWrite ((x.setLastMemoryAddress paddr).setLastMemoryAddress (paddr + 255)).p
      buffer with _ | p
    · exact ⟨rfl, .inr ⟨rfl, .inr (.inl rfl)⟩⟩
    · exact ⟨rfl, .inl rfl⟩

/-- A word of a write to the disk leaves the memory, or fails with an error. -/
theorem xferCcw_write (compare : Bool) (currentClp : Word) (x : Xfer) :
    (xferCcw false compare currentClp x).2.memory = x.memory ∧
      ((xferCcw false compare currentClp x).1 = some (mainMemoryRead x.memory currentClp).2 ∨
        (xferCcw false compare currentClp x).1 = none ∧
          (xferCcw false compare currentClp x).2.Failed) := by
  unfold xferCcw
  dsimp only
  split
  · exact ⟨rfl, .inr ⟨rfl, .inl rfl⟩⟩
  · obtain ⟨hmemory, hcases⟩ := writeBlock_cases
      ((mainMemoryRead (x.setLastMemoryAddress currentClp).memory currentClp).2 &&& 0x00FFFF00)
      { x.setLastMemoryAddress currentClp with
        status := { (x.setLastMemoryAddress currentClp).status with ccwCycle := false } }
    refine ⟨hmemory, ?_⟩
    rcases hcases with htrue | ⟨hfalse, hfailed⟩
    · exact .inl (if_pos htrue)
    · exact .inr ⟨if_neg fun htrue => Bool.false_ne_true (hfalse.symm.trans htrue), hfailed⟩

/-- A failed seek is an error. -/
theorem seekError_of_diskUnitSeek {p : DiskUnit} {cylinder head sector : Word}
    (h : ¬(diskUnitSeek p cylinder head sector).1 = true) :
    (diskUnitSeek p cylinder head sector).2.seekError = true := by
  unfold diskUnitSeek at h ⊢
  split_ifs at h ⊢ <;> first | rfl | exact absurd rfl h

/-- A write whose list never ends, as its words come round again, ends with an error. -/
theorem performXferLoop_endless (compare : Bool) (clp : Word) (clpOffset : HalfWord) (x : Xfer)
    (hmore : ∀ offset : HalfWord,
      ¬(mainMemoryRead x.memory (clp + offset.setWidth 32)).2 &&& 1 = 0) :
    (performXferLoop false compare clp clpOffset x).2.Failed := by
  fun_induction performXferLoop false compare clp clpOffset x with
  | case1 clpOffset x r hr =>
    rcases (xferCcw_write compare (clp + clpOffset.setWidth 32) x).2 with hsome | ⟨-, hfailed⟩
    · cases hr.symm.trans hsome
    · exact hfailed
  | case2 clpOffset x r ccw hr hlast =>
    rcases (xferCcw_write compare (clp + clpOffset.setWidth 32) x).2 with hsome | ⟨hnone, -⟩
    · cases hr.symm.trans hsome
      exact absurd hlast (hmore clpOffset)
    · cases hr.symm.trans hnone
  | case3 clpOffset x r ccw hr hlast hseek ih =>
    refine ih ?_
    rw [show r.2.memory = x.memory from (xferCcw_write compare _ x).1]
    exact hmore
  | case4 clpOffset x r ccw hr hlast hseek =>
    exact .inr (.inr (seekError_of_diskUnitSeek hseek))

/-- START of a write whose list never ends reports an error. -/
theorem errors_of_endless {command : Word} {g : DiskGlobals} {ccw : ℕ → Word} {n : ℕ}
    (h : g.TransferReady command ccw n)
    (hmore : ∀ offset : HalfWord,
      ¬(mainMemoryRead g.memory (g.clp + offset.setWidth 32)).2 &&& 1 = 0) :
    statusErrors (g.submitXfer true false false).encodeStatus ≠
      ⟨false, false, false, false, false, false⟩ := by
  obtain ⟨p, -, -, -, -, -, -, hresult⟩ := DiskGlobals.submitXfer_performs false h
  have hfailed := performXferLoop_endless false g.clp 0 ⟨p, g.startStatus, g.memory⟩ hmore
  obtain ⟨hselected, xferReq, interruptRequest, interrupts, heq⟩ := hresult _ rfl
  rw [DiskGlobals.statusErrors_encodeStatus, hselected, heq]
  intro herrors
  injection herrors with _ _ hmemory hseek _ hfault
  rcases hfailed with hnonexistent | hhasFault | hseekError
  · exact Bool.false_ne_true (hmemory.symm.trans hnonexistent)
  · exact Bool.false_ne_true (hfault.symm.trans hhasFault)
  · exact Bool.false_ne_true (hseek.symm.trans hseekError)

open DiskGlobals in
/-- START of a read, and of a write, moves the blocks of the command list and nothing
else, the registers tell the last block, and no error is added. What was written
from some pages is restored to them by a later read, whatever memory holds then. -/
theorem disk_transfer (ccw : ℕ → Word) (n : ℕ) (hn : n ≤ 2 ^ 16) :
    (∀ (g : DiskGlobals) (v : Word), g.TransferReady 0 ccw n → TargetsApart g.clp ccw n →
      ∃ g', g.write true 3 v = .ok g' ∧ TransferDone g g' ccw n ∧ BlocksRead g g' ccw n) ∧
    (∀ (g : DiskGlobals) (v : Word), g.TransferReady 0o11 ccw n →
      ∃ g', g.write true 3 v = .ok g' ∧ TransferDone g g' ccw n ∧ BlocksWritten g g' ccw n) ∧
    ∀ (g g₁ g₂ : DiskGlobals) (v w : Word), g.TransferReady 0o11 ccw n →
      g.write true 3 v = .ok g₁ → g₂.diskUnits = g₁.diskUnits → g₂.da = g.da →
      g₂.TransferReady 0 ccw n → TargetsApart g₂.clp ccw n →
      ∃ g₃, g₂.write true 3 w = .ok g₃ ∧
        ∀ i < n, g₃.memory.pages (targetPage (ccw i)) = g.memory.pages (targetPage (ccw i)) := by
  refine ⟨?_, ?_, ?_⟩
  · intro g v h hapart
    exact ⟨_, write_start_read h v, transferDone_submitXfer true h hn fun _ => hapart,
      blocksRead_submitXfer h hn hapart⟩
  · intro g v h
    exact ⟨_, write_start_write h v, transferDone_submitXfer false h hn nofun,
      blocksWritten_submitXfer h hn⟩
  · intro g g₁ g₂ v w h hwrite hunits hda h₂ hapart
    cases (write_start_write h v).symm.trans hwrite
    have hdone := transferDone_submitXfer false h hn nofun
    have hwritten := blocksWritten_submitXfer h hn
    have hread := blocksRead_submitXfer h₂ hn hapart
    have hselected : g₂.selectedUnit = (g.submitXfer true false false).selectedUnit := by
      rw [selectedUnit, selectedUnit, hunits, hda, hdone.unit]
    have hstart : g₂.startBlock = g.startBlock := by
      unfold startBlock DiskUnit.blockNumber
      rw [hselected, hda, hdone.drive.nblocksPerCylinder, hdone.drive.nblocksPerTrack]
    refine ⟨_, write_start_read h₂ w, fun i hi => ?_⟩
    obtain ⟨j, hj, hsame, hlast⟩ := exists_last (fun j => targetPage (ccw j)) hi
    calc (g₂.submitXfer true true false).memory.pages (targetPage (ccw i))
        = (g₂.submitXfer true true false).memory.pages (targetPage (ccw j)) :=
          congrArg _ hsame.symm
      _ = g₂.selectedUnit.mm (BitVec.ofNat 32 (g₂.startBlock + j)) := hread.pages j hj hlast
      _ = (g.submitXfer true false false).selectedUnit.mm
            (BitVec.ofNat 32 (g.startBlock + j)) := by rw [hselected, hstart]
      _ = g.memory.pages (targetPage (ccw j)) := hwritten.blocks j hj
      _ = g.memory.pages (targetPage (ccw i)) := congrArg _ hsame

/-- A controller with a unit online, and a command stored. -/
def commandedDisk (command : Word) (p : DiskUnit) (memory : MainMemory) : DiskGlobals :=
  { DiskGlobals.init (Function.update (fun i => offlineUnit i.val) 0 p) memory with cmd := command }

/-- A T-300 with an empty image. -/
def emptyDrive : DiskUnit := diskUnitInit 0 ⟨"Trident T-300", "T-300", 815, 19, 17⟩ fun _ _ => 0

/-- The drive of `commandedDisk` can start. -/
theorem sound_emptyDrive : SoundUnit 0 emptyDrive := soundUnit_diskUnitInit (by decide) 0 _

/-- A list of two words at 0, for the pages 1 and 2. -/
def twoWords (i : ℕ) : Word := if i = 0 then 0x101 else 0x200

/-- Two pages are read into memory, and two are written to the disk. -/
theorem disk_transfer_two_pages :
    (∃ g', (commandedDisk 0 emptyDrive ⟨4, fun _ offset => twoWords offset⟩).write true 3 1 =
        .ok g' ∧
      DiskGlobals.TransferDone (commandedDisk 0 emptyDrive ⟨4, fun _ offset => twoWords offset⟩)
        g' twoWords 2 ∧
      DiskGlobals.BlocksRead (commandedDisk 0 emptyDrive ⟨4, fun _ offset => twoWords offset⟩)
        g' twoWords 2) ∧
    ∃ g', (commandedDisk 0o11 emptyDrive ⟨4, fun _ offset => twoWords offset⟩).write true 3 1 =
        .ok g' ∧
      DiskGlobals.TransferDone
        (commandedDisk 0o11 emptyDrive ⟨4, fun _ offset => twoWords offset⟩) g' twoWords 2 ∧
      DiskGlobals.BlocksWritten
        (commandedDisk 0o11 emptyDrive ⟨4, fun _ offset => twoWords offset⟩) g' twoWords 2 := by
  obtain ⟨hread, hwrite, -⟩ := disk_transfer twoWords 2 (by decide)
  refine ⟨hread _ 1 ?_ ?_, hwrite _ 1 ?_⟩
  · exact ⟨rfl, rfl, rfl, sound_emptyDrive, by decide, by decide, by decide,
      ⟨by decide, by decide, by decide, by decide⟩, by decide⟩
  · unfold TargetsApart
    decide
  · exact ⟨rfl, rfl, rfl, sound_emptyDrive, by decide, by decide, by decide,
      ⟨by decide, by decide, by decide, by decide⟩, by decide⟩

/-- A memory of 512 pages of ones, with a zero at 0200000. -/
def onesMemory : MainMemory :=
  ⟨512, fun page offset => if page.val = 256 ∧ offset.val = 0 then 0 else 1⟩

/-- The words of `onesMemory`. -/
theorem mainMemoryRead_onesMemory {k : ℕ} (hk : k < 2 ^ 17) :
    mainMemoryRead onesMemory (BitVec.ofNat 32 k) = (true, if k = 65536 then 0 else 1) := by
  have hpage : (pageNumber (BitVec.ofNat 32 k)).toNat = k / 256 := by
    rw [pageNumber, toNat_and_mask _ _ (n := 14) rfl, toNat_shiftRight, BitVec.toNat_ofNat]
    omega
  have hoffset : (pageOffset (BitVec.ofNat 32 k)).toNat = k % 256 := by
    rw [pageOffset, toNat_and_mask _ _ (n := 8) rfl, BitVec.toNat_ofNat]
    omega
  have hpages : (pageNumber (BitVec.ofNat 32 k)).toNat < onesMemory.npages := by
    rw [hpage]
    show k / 256 < 512
    omega
  unfold mainMemoryRead
  rw [if_pos hpages]
  unfold MainMemory.word
  simp only [onesMemory, hpage, hoffset]
  have hiff : k / 256 = 256 ∧ k % 256 = 0 ↔ k = 65536 := by omega
  simp only [hiff]

/-- A list of 65537 words does not fit the offset of 16 bits. -/
theorem transferReady_onesMemory : (commandedDisk 0o11 emptyDrive onesMemory).TransferReady 0o11
    (fun i => if i = 65536 then 0 else 1) 65537 := by
  refine ⟨rfl, rfl, rfl, sound_emptyDrive, by decide, by decide, by decide, ⟨by decide, ?_, ?_, ?_⟩,
    by decide⟩
  · intro i hi
    have haddress : (0 : Word) + BitVec.ofNat 32 i = BitVec.ofNat 32 i := BitVec.zero_add _
    show mainMemoryRead onesMemory (0 + BitVec.ofNat 32 i) = _
    rw [haddress]
    exact mainMemoryRead_onesMemory (by omega)
  · intro i hi
    split
    · exact iff_of_true rfl (by omega)
    · exact iff_of_false (by decide) (by omega)
  · intro i hi
    split <;> decide

/-- The errors of the drive stay after a successful transfer, and a list of more than
65536 words wraps around, so that the transfer runs off the disk. -/
theorem disk_transfer_reports_errors :
    (¬∀ (g : DiskGlobals) (ccw : ℕ → Word) (n : ℕ) (v : Word), n ≤ 2 ^ 16 →
      g.TransferReady 0 ccw n → TargetsApart g.clp ccw n → ∃ g', g.write true 3 v = .ok g' ∧
        statusErrors g'.encodeStatus = ⟨false, false, false, false, false, false⟩) ∧
    ¬∀ (g : DiskGlobals) (ccw : ℕ → Word) (n : ℕ) (v : Word),
      g.selectedUnit.seekError = false → g.selectedUnit.hasFault = false →
      g.TransferReady 0o11 ccw n → ∃ g', g.write true 3 v = .ok g' ∧
        statusErrors g'.encodeStatus = ⟨false, false, false, false, false, false⟩ := by
  constructor
  · intro h
    have hsound : SoundUnit 0 (diskUnitSeek emptyDrive 4095 0 0).2 :=
      (KeepsUnit.seek emptyDrive 4095 0 0).sound 0 sound_emptyDrive
    have hready : (commandedDisk 0 (diskUnitSeek emptyDrive 4095 0 0).2
        ⟨4, fun _ offset => twoWords offset⟩).TransferReady 0 twoWords 2 :=
      ⟨rfl, rfl, rfl, hsound, by decide, by decide, by decide,
        ⟨by decide, by decide, by decide, by decide⟩, by decide⟩
    have hapart : TargetsApart 0 twoWords 2 := by
      unfold TargetsApart
      decide
    obtain ⟨g', hwrite, herrors⟩ := h _ twoWords 2 1 (by decide) hready hapart
    cases (DiskGlobals.write_start_read hready 1).symm.trans hwrite
    have hdone := DiskGlobals.transferDone_submitXfer true hready (by decide) fun _ => hapart
    have hseek := congrArg StatusErrors.seekError (hdone.errors.symm.trans herrors)
    exact absurd hseek (by decide)
  · intro h
    obtain ⟨g', hwrite, herrors⟩ := h _ _ _ 1 rfl rfl transferReady_onesMemory
    cases (DiskGlobals.write_start_write transferReady_onesMemory 1).symm.trans hwrite
    refine errors_of_endless transferReady_onesMemory (fun offset => ?_) herrors
    have hlt := offset.isLt
    have haddress : (commandedDisk 0o11 emptyDrive onesMemory).clp + offset.setWidth 32 =
        BitVec.ofNat 32 offset.toNat := by
      have hzero : (0 : Word) + offset.setWidth 32 = offset.setWidth 32 := BitVec.zero_add _
      refine hzero.trans (BitVec.eq_of_toNat_eq ?_)
      rw [BitVec.toNat_setWidth, BitVec.toNat_ofNat]
    have hmemory : (commandedDisk 0o11 emptyDrive onesMemory).memory = onesMemory := rfl
    rw [haddress, hmemory, mainMemoryRead_onesMemory (by omega), if_neg (by omega)]
    decide

end Usim
