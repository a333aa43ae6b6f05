import Usim.CSharp.DiskController
import Usim.DiskEffects
import Usim.Lib.Lockstep

/-!
# The two disk controllers

The C program with blocking transfers and the port do the same for every register
access, as long as the command words of a transfer are fetched below 2^22.
-/

namespace Usim

open Lib

/-- The unit of the port that is like `p`. Only an online unit has a file. -/
def DiskUnit.sharp (p : DiskUnit) : SharpDiskUnit where
  unit := p.unit
  cylinders := p.ncylinders
  heads := p.nheads
  blocksPerTrack := p.nblocksPerTrack
  blocksPerCylinder := p.nblocksPerCylinder
  online := p.online
  readOnly := p.readOnly
  seekError := p.seekError
  hasFault := p.hasFault
  attention := p.attention
  lastMemoryAddress := p.lastMemoryAddress
  cylinder := p.cylinder
  head := p.head
  sector := p.sector
  lba := p.lba
  file := if p.online then some p.mm else none
  fileSize := p.mmsz

/-- The two seek alike. -/
theorem DiskUnit.sharp_seek (p : DiskUnit) (cylinder head sector : Word) :
    p.sharp.seek cylinder head sector =
      ((diskUnitSeek p cylinder head sector).1, (diskUnitSeek p cylinder head sector).2.sharp) := by
  unfold SharpDiskUnit.seek diskUnitSeek
  split_ifs <;> first | rfl | contradiction

/-- The two move on alike. -/
theorem DiskUnit.sharp_seekNextLba (p : DiskUnit) :
    p.sharp.seekNextLba = ((diskUnitSeekNextLba p).1, (diskUnitSeekNextLba p).2.sharp) :=
  p.sharp_seek _ _ _

/-- The two read the same block. -/
theorem DiskUnit.sharp_read {p : DiskUnit} (h : p.online = true) :
    p.sharp.read = diskUnitRead p := by
  unfold SharpDiskUnit.read DiskUnit.sharp diskUnitRead
  simp only [h, if_true]

/-- The two write the same block. -/
theorem DiskUnit.sharp_write {p : DiskUnit} (h : p.online = true) (buffer : Page) :
    p.sharp.write buffer = (diskUnitWrite p buffer).map DiskUnit.sharp := by
  unfold SharpDiskUnit.write DiskUnit.sharp diskUnitWrite
  simp only [h, if_true]
  split
  · rfl
  · simp only [Option.map_some, if_true]

/-- The transfer of the port that is like `x`. -/
def Xfer.sharp (x : Xfer) : SharpXfer :=
  ⟨x.p.sharp, x.status.readCompareDifference, x.status.ccwCycle, x.status.nonexistentMemoryError,
    x.memory.flat⟩

/-- The unit of the transfer moves on alike. -/
theorem Xfer.sharp_seekNextLba (x : Xfer) :
    x.sharp.p.seekNextLba.1 = (diskUnitSeekNextLba x.p).1 :=
  congrArg Prod.fst x.p.sharp_seekNextLba

/-- The transfer after its unit has moved on. -/
theorem Xfer.sharp_next (x : Xfer) :
    ({ x.sharp with p := x.sharp.p.seekNextLba.2 } : SharpXfer) =
      Xfer.sharp { x with p := (diskUnitSeekNextLba x.p).2 } :=
  congrArg (fun p : Bool × SharpDiskUnit => { x.sharp with p := p.2 }) x.p.sharp_seekNextLba

namespace SharpXfer

/-- The two compare a block alike. -/
theorem sharp_compareBlock (buffer : Page) (paddr : Word) (x : Xfer) :
    compareBlock buffer paddr x.sharp =
      ((Usim.compareBlock buffer paddr x).1, (Usim.compareBlock buffer paddr x).2.sharp) := by
  unfold compareBlock Usim.compareBlock
  have hread : (x.sharp.setLastMemoryAddress paddr).mainMemory.readPage paddr =
      mainMemoryReadPage (x.setLastMemoryAddress paddr).memory paddr :=
    MainMemory.flat_readPage _ _
  simp only [hread]
  rcases mainMemoryReadPage (x.setLastMemoryAddress paddr).memory paddr with _ | bufferCompare
  · rfl
  · by_cases hdifference : ∃ i, buffer i ≠ bufferCompare i
    · simp only [if_pos hdifference]
      rfl
    · simp only [if_neg hdifference]
      rfl

/-- The two store a block alike. -/
theorem sharp_readBlock (buffer : Page) (paddr : Word) (x : Xfer) :
    readBlock buffer paddr x.sharp =
      ((Usim.readBlock buffer paddr x).1, (Usim.readBlock buffer paddr x).2.sharp) := by
  unfold readBlock Usim.readBlock
  have hwrite : (x.sharp.setLastMemoryAddress paddr).mainMemory.writePage paddr buffer =
      (mainMemoryWritePage (x.setLastMemoryAddress paddr).memory paddr buffer).map
        MainMemory.flat :=
    MainMemory.flat_writePage _ _ _
  simp only [hwrite]
  rcases mainMemoryWritePage (x.setLastMemoryAddress paddr).memory paddr buffer with _ | memory
  · rfl
  · rfl

/-- The two write a page alike. -/
theorem sharp_writeBlock {x : Xfer} (h : x.p.online = true) (paddr : Word) :
    writeBlock paddr x.sharp =
      ((Usim.writeBlock paddr x).1, (Usim.writeBlock paddr x).2.sharp) := by
  unfold writeBlock Usim.writeBlock
  have hread : (x.sharp.setLastMemoryAddress paddr).mainMemory.readPage paddr =
      mainMemoryReadPage (x.setLastMemoryAddress paddr).memory paddr :=
    MainMemory.flat_readPage _ _
  simp only [hread]
  rcases mainMemoryReadPage (x.setLastMemoryAddress paddr).memory paddr with _ | buffer
  · rfl
  · have hwrite : ((x.sharp.setLastMemoryAddress paddr).setLastMemoryAddress
        (paddr + 255)).p.write buffer =
        (diskUnitWrite ((x.setLastMemoryAddress paddr).setLastMemoryAddress
          (paddr + 255)).p buffer).map DiskUnit.sharp :=
      DiskUnit.sharp_write (p := ((x.setLastMemoryAddress paddr).setLastMemoryAddress
        (paddr + 255)).p) h buffer
    simp only [hwrite]
    rcases diskUnitWrite ((x.setLastMemoryAddress paddr).setLastMemoryAddress
      (paddr + 255)).p buffer with _ | p
    · rfl
    · rfl

/-- The two transfer a block alike. -/
theorem sharp_xferBlock {x : Xfer} (h : x.p.online = true) (read compare : Bool) (paddr : Word) :
    xferBlock read compare paddr x.sharp =
      ((Usim.xferBlock read compare paddr x).1, (Usim.xferBlock read compare paddr x).2.sharp) := by
  unfold xferBlock Usim.xferBlock
  cases read with
  | false => exact sharp_writeBlock h paddr
  | true =>
    have hread : x.sharp.p.read = diskUnitRead x.p := DiskUnit.sharp_read h
    simp only [hread, if_true]
    rcases diskUnitRead x.p with _ | buffer
    · rfl
    · cases compare with
      | false => exact sharp_readBlock buffer paddr x
      | true => exact sharp_compareBlock buffer paddr x

end SharpXfer

/-- A populated word of an address of more than 22 bits, which the C program fetches
from the page that the low bits of the address name. -/
def FetchedAbove (memory : MainMemory) (paddr : Word) : Prop :=
  (pageNumber paddr).toNat < memory.npages ∧ 2 ^ 22 ≤ paddr.toNat

instance (memory : MainMemory) (paddr : Word) : Decidable (FetchedAbove memory paddr) :=
  inferInstanceAs (Decidable (_ ∧ _))

/-- The two fetch the same command word below 2^22, and fail alike on an unpopulated page. -/
theorem flat_tryReadWord_of_not {memory : MainMemory} {paddr : Word}
    (h : ¬FetchedAbove memory paddr) :
    memory.flat.tryReadWord paddr = mainMemoryRead memory paddr := by
  by_cases hlt : paddr.toNat < 4194304
  · exact memory.flat_tryReadWord hlt
  · have hpage : ¬(pageNumber paddr).toNat < memory.npages := fun hpage =>
      h ⟨hpage, Nat.le_of_not_lt hlt⟩
    unfold SharpMemory.tryReadWord mainMemoryRead
    rw [dif_neg fun h' => hlt h'.2, if_neg hpage]

/-- The two do the same for a command word. -/
theorem SharpXfer.sharp_xferCcw {x : Xfer} (h : x.p.online = true) (read compare : Bool)
    {currentClp : Word} (hbelow : ¬FetchedAbove x.memory currentClp) :
    SharpXfer.xferCcw read compare currentClp x.sharp =
      ((Usim.xferCcw read compare currentClp x).1,
        (Usim.xferCcw read compare currentClp x).2.sharp) := by
  have hccw : (x.sharp.setLastMemoryAddress currentClp).mainMemory.tryReadWord currentClp =
      mainMemoryRead (x.setLastMemoryAddress currentClp).memory currentClp :=
    flat_tryReadWord_of_not hbelow
  unfold SharpXfer.xferCcw Usim.xferCcw
  simp only [hccw]
  split
  · rfl
  · generalize (mainMemoryRead (x.setLastMemoryAddress currentClp).memory currentClp).2 = ccw
    have hblock := SharpXfer.sharp_xferBlock (x := { x.setLastMemoryAddress currentClp with
      status := { (x.setLastMemoryAddress currentClp).status with ccwCycle := false } }) h
      read compare (ccw &&& 0x00FFFF00)
    exact congrArg (fun r => (if r.1 = true then some ccw else none, r.2)) hblock

/-- The addresses of the command words that the loop of `perform_xfer` fetches. -/
def ccwAddresses (read compare : Bool) (clp : Word) (clpOffset : HalfWord) (x : Xfer) :
    List Word :=
  let currentClp := clp + clpOffset.setWidth 32
  let r := xferCcw read compare currentClp x
  match r.1 with
  | none => [currentClp]
  | some ccw =>
    if ccw &&& 1 = 0 then [currentClp]
    else if h : (diskUnitSeekNextLba r.2.p).1 = true then
      currentClp :: ccwAddresses read compare clp (clpOffset + 1)
        { r.2 with p := (diskUnitSeekNextLba r.2.p).2 }
    else [currentClp]
termination_by x.p.rank
decreasing_by
  exact Nat.lt_of_lt_of_eq (rank_diskUnitSeekNextLba h) (blockFrame_xferCcw _ _ _ _).place.rank

/-- Every command word is fetched below 2^22 or from an unpopulated page. -/
def FetchesBelow (memory : MainMemory) (paddrs : List Word) : Prop :=
  ∀ paddr ∈ paddrs, ¬FetchedAbove memory paddr

/-- The two transfer alike. -/
theorem sharp_performXferLoop (read compare : Bool) (clp : Word) (clpOffset : HalfWord) (x : Xfer)
    (honline : x.p.online = true)
    (hbelow : FetchesBelow x.memory (ccwAddresses read compare clp clpOffset x)) :
    SharpXfer.performXferLoop read compare clp clpOffset x.sharp =
      ((performXferLoop read compare clp clpOffset x).1,
        (performXferLoop read compare clp clpOffset x).2.sharp) := by
  fun_induction ccwAddresses read compare clp clpOffset x with
  | case1 clpOffset x currentClp r hr =>
    have hxfer := SharpXfer.sharp_xferCcw honline read compare (hbelow _ List.mem_cons_self)
    simp only [r, currentClp] at hr hxfer
    rw [SharpXfer.performXferLoop, performXferLoop]
    simp only [hxfer, hr]
  | case2 clpOffset x currentClp r ccw hr hlast =>
    have hxfer := SharpXfer.sharp_xferCcw honline read compare (hbelow _ List.mem_cons_self)
    simp only [r, currentClp] at hr hxfer
    rw [SharpXfer.performXferLoop, performXferLoop]
    simp only [hxfer, hr, if_pos hlast]
  | case3 clpOffset x currentClp r ccw hr hlast hseek ih =>
    have hxfer := SharpXfer.sharp_xferCcw honline read compare (hbelow _ List.mem_cons_self)
    have hframe := blockFrame_xferCcw read compare currentClp x
    have hnext := (sameDrive_diskUnitSeek r.2.p (nextPosition r.2.p).1 (nextPosition r.2.p).2.1
      (nextPosition r.2.p).2.2).online
    have htail := ih (hnext.trans (hframe.place.online.trans honline)) fun paddr hpaddr habove =>
      hbelow paddr (List.mem_cons_of_mem _ hpaddr) ⟨hframe.npages ▸ habove.1, habove.2⟩
    simp only [r, currentClp] at hr hxfer hseek htail
    rw [SharpXfer.performXferLoop, performXferLoop]
    simp only [hxfer, hr, if_neg hlast, Xfer.sharp_seekNextLba, Xfer.sharp_next, dif_pos hseek]
    exact htail
  | case4 clpOffset x currentClp r ccw hr hlast hseek =>
    have hxfer := SharpXfer.sharp_xferCcw honline read compare (hbelow _ List.mem_cons_self)
    simp only [r, currentClp] at hr hxfer hseek
    rw [SharpXfer.performXferLoop, performXferLoop]
    simp only [hxfer, hr, if_neg hlast, Xfer.sharp_seekNextLba, Xfer.sharp_next, dif_neg hseek]

/-- The transfer of a block leaves the kind of the cycle. -/
theorem ccwCycle_xferBlock (read compare : Bool) (paddr : Word) (x : Xfer) :
    (xferBlock read compare paddr x).2.status.ccwCycle = x.status.ccwCycle := by
  unfold xferBlock compareBlock readBlock writeBlock
  dsimp only
  split
  · split
    · split
      · split
        · split <;> rfl
        · rfl
      · split <;> rfl
    · rfl
  · split
    · split <;> rfl
    · rfl

/-- Exactly the words of populated pages are read. -/
theorem mainMemoryRead_populated (mm : MainMemory) (paddr : Word) :
    (mainMemoryRead mm paddr).1 = true ↔ (pageNumber paddr).toNat < mm.npages := by
  unfold mainMemoryRead
  split <;> simp [*]

/-- The transfer stopped at a command word, which the memory address register names,
although its page is populated. -/
def SharpXfer.StoppedAtCcw (x : SharpXfer) : Prop :=
  x.ccwCycle = true ∧ (pageNumber x.p.lastMemoryAddress).toNat < x.mainMemory.npages

/-- The C program stops at a command word only when its page is not populated. -/
theorem xferCcw_not_stopped (read compare : Bool) (currentClp : Word) (x : Xfer)
    (hcycle : (xferCcw read compare currentClp x).2.status.ccwCycle = true) :
    (xferCcw read compare currentClp x).1 = none ∧
      ¬(xferCcw read compare currentClp x).2.sharp.StoppedAtCcw := by
  unfold xferCcw at hcycle ⊢
  dsimp only at hcycle ⊢
  have hfetch := mainMemoryRead_populated (x.setLastMemoryAddress currentClp).memory currentClp
  by_cases hpage : (pageNumber currentClp).toNat < x.memory.npages
  · rw [if_neg (not_not_intro (hfetch.mpr hpage)), ccwCycle_xferBlock] at hcycle
    cases hcycle
  · rw [if_pos fun h => hpage (hfetch.mp h)]
    exact ⟨rfl, fun hstopped => hpage hstopped.2⟩

/-- The C program never stops at a populated command word. -/
theorem performXferLoop_not_stopped (read compare : Bool) (clp : Word) (clpOffset : HalfWord)
    (x : Xfer) : ¬(performXferLoop read compare clp clpOffset x).2.sharp.StoppedAtCcw := by
  intro h
  fun_induction performXferLoop read compare clp clpOffset x with
  | case1 clpOffset x r hr => exact (xferCcw_not_stopped _ _ _ _ h.1).2 h
  | case2 clpOffset x r ccw hr hlast => exact (xferCcw_not_stopped _ _ _ _ h.1).2 h
  | case3 clpOffset x r ccw hr hlast hseek ih => exact ih h
  | case4 clpOffset x r ccw hr hlast hseek =>
    have hnone := (xferCcw_not_stopped _ _ _ _ h.1).1
    exact absurd (hr.symm.trans hnone) (Option.some_ne_none ccw)

/-- The port stops at a populated command word above 2^22. -/
theorem stopped_of_above {clp : Word} {clpOffset : HalfWord} {x : Xfer} (read compare : Bool)
    (h : FetchedAbove x.memory (clp + clpOffset.setWidth 32)) :
    (SharpXfer.performXferLoop read compare clp clpOffset x.sharp).2.StoppedAtCcw := by
  have hfetch :
      ¬((x.sharp.setLastMemoryAddress (clp + clpOffset.setWidth 32)).mainMemory.tryReadWord
        (clp + clpOffset.setWidth 32)).1 = true := by
    unfold SharpMemory.tryReadWord
    rw [dif_neg fun h' => Nat.not_lt.mpr h.2 h'.2]
    exact Bool.false_ne_true
  rw [SharpXfer.performXferLoop, SharpXfer.xferCcw]
  dsimp only
  rw [if_pos hfetch]
  exact ⟨rfl, h.1⟩

/-- The port stops at the first populated command word above 2^22. -/
theorem sharp_performXferLoop_stopped (read compare : Bool) (clp : Word) (clpOffset : HalfWord)
    (x : Xfer) (honline : x.p.online = true)
    (habove : ¬FetchesBelow x.memory (ccwAddresses read compare clp clpOffset x)) :
    (SharpXfer.performXferLoop read compare clp clpOffset x.sharp).2.StoppedAtCcw := by
  by_cases hfirst : FetchedAbove x.memory (clp + clpOffset.setWidth 32)
  · exact stopped_of_above read compare hfirst
  have hone : FetchesBelow x.memory [clp + clpOffset.setWidth 32] := by
    intro paddr hpaddr
    rwa [List.mem_singleton.mp hpaddr]
  fun_induction ccwAddresses read compare clp clpOffset x with
  | case1 clpOffset x currentClp r hr => exact absurd hone habove
  | case2 clpOffset x currentClp r ccw hr hlast => exact absurd hone habove
  | case3 clpOffset x currentClp r ccw hr hlast hseek ih =>
    have hxfer := SharpXfer.sharp_xferCcw honline read compare hfirst
    have hframe := blockFrame_xferCcw read compare currentClp x
    have hnext := (sameDrive_diskUnitSeek r.2.p (nextPosition r.2.p).1 (nextPosition r.2.p).2.1
      (nextPosition r.2.p).2.2).online
    have hrest : ¬FetchesBelow r.2.memory (ccwAddresses read compare clp (clpOffset + 1)
        { r.2 with p := (diskUnitSeekNextLba r.2.p).2 }) := by
      intro hrest
      refine habove fun paddr hpaddr => ?_
      rcases List.mem_cons.mp hpaddr with rfl | htail
      · exact hfirst
      · exact fun h => hrest paddr htail ⟨hframe.npages.symm ▸ h.1, h.2⟩
    have hstopped : (SharpXfer.performXferLoop read compare clp (clpOffset + 1)
        (Xfer.sharp { r.2 with p := (diskUnitSeekNextLba r.2.p).2 })).2.StoppedAtCcw := by
      by_cases hsecond : FetchedAbove r.2.memory (clp + (clpOffset + 1).setWidth 32)
      · exact stopped_of_above read compare hsecond
      · refine ih (hnext.trans (hframe.place.online.trans honline)) hrest hsecond ?_
        intro paddr hpaddr
        rwa [List.mem_singleton.mp hpaddr]
    simp only [r, currentClp] at hr hxfer hseek hstopped
    rw [SharpXfer.performXferLoop]
    simp only [hxfer, hr, if_neg hlast, Xfer.sharp_seekNextLba, Xfer.sharp_next, dif_pos hseek]
    exact hstopped
  | case4 clpOffset x currentClp r ccw hr hlast hseek => exact absurd hone habove

end Usim
