import Usim.DiskRun

/-!
# The status of the last disk transfer

The compare difference, the cycle of a command word, and the nonexistent memory error in
the status word, after START of a transfer, against what the turns of that very transfer
came upon. `perform_xfer` clears the three, and a transfer whose seek fails does not get there.
-/

namespace Usim

open Lib

variable {read compare : Bool} {clp : Word} {clpOffset : HalfWord} {x : Xfer}

/-! ### What a turn comes upon -/

namespace XferTurn

/-- The command word is in no populated page. -/
def FetchFails (t : XferTurn) : Prop := (mainMemoryRead t.x.memory t.currentClp).1 = false

/-- The page of the command word. -/
def paddr (t : XferTurn) : Word := t.ccw &&& 0x00FFFF00

/-- The page that the block is moved to or from, or compared with, is not populated. -/
def PageMissing (read : Bool) (t : XferTurn) : Prop :=
  ¬t.FetchFails ∧ (read = true → diskUnitRead t.x.p ≠ none) ∧
    mainMemoryReadPage t.x.memory t.paddr = none

/-- The block and the page are compared and differ. -/
def Differs (read compare : Bool) (t : XferTurn) : Prop :=
  ¬t.FetchFails ∧ read = true ∧ compare = true ∧ ∃ buffer bufferCompare,
    diskUnitRead t.x.p = some buffer ∧
    mainMemoryReadPage t.x.memory t.paddr = some bufferCompare ∧ buffer ≠ bufferCompare

end XferTurn

/-- The three flags of a status, after turns of a transfer that found them so. -/
structure FlagsTell (read compare : Bool) (run : List XferTurn) (difference missing : Bool)
    (status : DiskStatus) : Prop where
  difference : status.readCompareDifference = true ↔
    difference = true ∨ ∃ t ∈ run, t.Differs read compare
  ccwCycle : status.ccwCycle = true ↔ ∃ t ∈ run, t.FetchFails
  missing : status.nonexistentMemoryError = true ↔
    missing = true ∨ ∃ t ∈ run, t.FetchFails ∨ t.PageMissing read

/-- A page is written where it is read. -/
theorem mainMemoryWritePage_eq_none {mm : MainMemory} {paddr : Word} {buffer : Page} :
    mainMemoryWritePage mm paddr buffer = none ↔ mainMemoryReadPage mm paddr = none := by
  unfold mainMemoryWritePage mainMemoryReadPage
  split <;> simp

/-- The flags after a block, compared, stored or written. -/
structure BlockFlags (differs missing : Prop) (x x' : Xfer) : Prop where
  difference : x'.status.readCompareDifference = true ↔
    x.status.readCompareDifference = true ∨ differs
  ccwCycle : x'.status.ccwCycle = x.status.ccwCycle
  missing : x'.status.nonexistentMemoryError = true ↔
    x.status.nonexistentMemoryError = true ∨ missing

/-- The flags stay. -/
theorem BlockFlags.same {differs missing : Prop} {x' : Xfer} (h : x'.status = x.status)
    (hdiffers : ¬differs) (hmissing : ¬missing) : BlockFlags differs missing x x' where
  difference := by rw [h, or_iff_left hdiffers]
  ccwCycle := by rw [h]
  missing := by rw [h, or_iff_left hmissing]

/-- The flags after a block is compared with a page. -/
theorem blockFlags_compareBlock (buffer : Page) (paddr : Word) (x : Xfer) :
    BlockFlags (∃ bufferCompare, mainMemoryReadPage x.memory paddr = some bufferCompare ∧
      buffer ≠ bufferCompare) (mainMemoryReadPage x.memory paddr = none) x
      (compareBlock buffer paddr x).2 := by
  unfold compareBlock
  simp only [Xfer.setLastMemoryAddress]
  cases hpage : mainMemoryReadPage x.memory paddr with
  | none =>
    refine ⟨?_, rfl, iff_of_true rfl (Or.inr rfl)⟩
    refine (or_iff_left ?_).symm
    rintro ⟨_, h, -⟩
    cases h
  | some bufferCompare =>
    simp only
    split
    · rename_i hdiffer
      refine ⟨iff_of_true rfl (Or.inr ⟨bufferCompare, rfl, ?_⟩), rfl, ?_⟩
      · exact Function.ne_iff.mpr hdiffer
      · exact (or_iff_left (Option.some_ne_none _)).symm
    · rename_i hsame
      refine .same rfl ?_ (Option.some_ne_none _)
      rintro ⟨_, ⟨⟩, hne⟩
      exact hsame (Function.ne_iff.mp hne)

/-- The flags after a block is stored in a page. -/
theorem blockFlags_readBlock (buffer : Page) (paddr : Word) (x : Xfer) :
    BlockFlags False (mainMemoryReadPage x.memory paddr = none) x
      (readBlock buffer paddr x).2 := by
  unfold readBlock
  simp only [Xfer.setLastMemoryAddress]
  cases hpage : mainMemoryWritePage x.memory paddr buffer with
  | none =>
    have hmissing := mainMemoryWritePage_eq_none.mp hpage
    exact ⟨(or_iff_left not_false).symm, rfl, iff_of_true rfl (Or.inr hmissing)⟩
  | some memory =>
    refine .same rfl not_false fun hmissing => ?_
    rw [mainMemoryWritePage_eq_none.mpr hmissing] at hpage
    cases hpage

/-- The flags after a page is written to the disk. -/
theorem blockFlags_writeBlock (paddr : Word) (x : Xfer) :
    BlockFlags False (mainMemoryReadPage x.memory paddr = none) x (writeBlock paddr x).2 := by
  unfold writeBlock
  simp only [Xfer.setLastMemoryAddress]
  cases hpage : mainMemoryReadPage x.memory paddr with
  | none => exact ⟨(or_iff_left not_false).symm, rfl, iff_of_true rfl (Or.inr rfl)⟩
  | some buffer =>
    simp only
    split
    · exact .same rfl not_false (Option.some_ne_none _)
    · exact .same rfl not_false (Option.some_ne_none _)

/-- The flags after the transfer of one block. -/
theorem blockFlags_xferBlock (read compare : Bool) (paddr : Word) (x : Xfer) :
    BlockFlags
      (read = true ∧ compare = true ∧ ∃ buffer bufferCompare, diskUnitRead x.p = some buffer ∧
        mainMemoryReadPage x.memory paddr = some bufferCompare ∧ buffer ≠ bufferCompare)
      ((read = true → diskUnitRead x.p ≠ none) ∧ mainMemoryReadPage x.memory paddr = none) x
      (xferBlock read compare paddr x).2 := by
  unfold xferBlock
  cases read with
  | false =>
    obtain ⟨hdifference, hcycle, hmissing⟩ := blockFlags_writeBlock paddr x
    refine ⟨hdifference.trans (or_congr_right ?_), hcycle, hmissing.trans (or_congr_right ?_)⟩
    · exact iff_of_false not_false fun h => Bool.false_ne_true h.1
    · exact (and_iff_right fun h => absurd h Bool.false_ne_true).symm
  | true =>
    rw [if_pos rfl]
    cases hblock : diskUnitRead x.p with
    | none =>
      refine .same rfl ?_ fun h => h.1 rfl rfl
      rintro ⟨-, -, _, _, ⟨⟩, -⟩
    | some buffer =>
      have hread : (true = true → some buffer ≠ none) := fun _ => Option.some_ne_none _
      cases compare with
      | true =>
        obtain ⟨hdifference, hcycle, hmissing⟩ := blockFlags_compareBlock buffer paddr x
        refine ⟨hdifference.trans (or_congr_right ?_), hcycle, hmissing.trans (or_congr_right ?_)⟩
        · constructor
          · rintro ⟨bufferCompare, hpage, hne⟩
            exact ⟨rfl, rfl, buffer, bufferCompare, rfl, hpage, hne⟩
          · rintro ⟨-, -, _, bufferCompare, ⟨⟩, hpage, hne⟩
            exact ⟨bufferCompare, hpage, hne⟩
        · exact (and_iff_right hread).symm
      | false =>
        obtain ⟨hdifference, hcycle, hmissing⟩ := blockFlags_readBlock buffer paddr x
        refine ⟨hdifference.trans (or_congr_right ?_), hcycle, hmissing.trans (or_congr_right ?_)⟩
        · exact iff_of_false not_false fun h => Bool.false_ne_true h.2.1
        · exact (and_iff_right hread).symm

/-- A property of the only turn. -/
theorem exists_mem_singleton {P : XferTurn → Prop} {t : XferTurn} : (∃ t' ∈ [t], P t') ↔ P t := by
  constructor
  · rintro ⟨t', ht', h⟩
    rwa [List.mem_singleton.mp ht'] at h
  · exact fun h => ⟨t, List.mem_singleton_self t, h⟩

/-- The flags after a turn. -/
theorem flagsTell_xferCcw (read compare : Bool) (t : XferTurn) :
    FlagsTell read compare [t] t.x.status.readCompareDifference t.x.status.nonexistentMemoryError
      (xferCcw read compare t.currentClp t.x).2.status := by
  unfold xferCcw
  by_cases hfails : (mainMemoryRead t.x.memory t.currentClp).1 = true
  · have hfetched : ¬t.FetchFails := fun h => Bool.false_ne_true (h.symm.trans hfails)
    have hsome : ¬¬(mainMemoryRead (t.x.setLastMemoryAddress t.currentClp).memory
        t.currentClp).1 = true := not_not_intro hfails
    simp only [if_neg hsome]
    obtain ⟨hdifference, hcycle, hmissing⟩ := blockFlags_xferBlock read compare t.paddr
      { t.x.setLastMemoryAddress t.currentClp with
        status := { t.x.status with ccwCycle := false } }
    refine ⟨?_, ?_, ?_⟩
    · rw [exists_mem_singleton]
      exact hdifference.trans (or_congr_right (and_iff_right hfetched).symm)
    · rw [exists_mem_singleton]
      exact iff_of_false (fun h => Bool.false_ne_true (hcycle.symm.trans h)) hfetched
    · rw [exists_mem_singleton, or_iff_right hfetched]
      exact hmissing.trans (or_congr_right (and_iff_right hfetched).symm)
  · have hnone : t.FetchFails := Bool.eq_false_iff.mpr hfails
    have hfails' : ¬(mainMemoryRead (t.x.setLastMemoryAddress t.currentClp).memory
        t.currentClp).1 = true := hfails
    simp only [if_pos hfails']
    refine ⟨?_, ?_, ?_⟩
    · rw [exists_mem_singleton]
      exact (or_iff_left fun h => h.1 hnone).symm
    · rw [exists_mem_singleton]
      exact iff_of_true rfl hnone
    · rw [exists_mem_singleton]
      exact iff_of_true rfl (Or.inr (Or.inl hnone))

/-- A turn whose command word was fetched, before other ones. -/
theorem FlagsTell.cons {t : XferTurn} {run : List XferTurn} {difference missing : Bool}
    {status status' : DiskStatus} (h : FlagsTell read compare [t] difference missing status)
    (hfetched : ¬t.FetchFails)
    (hrest : FlagsTell read compare run status.readCompareDifference
      status.nonexistentMemoryError status') :
    FlagsTell read compare (t :: run) difference missing status' where
  difference := by
    rw [hrest.difference, h.difference, exists_mem_singleton, or_assoc, List.exists_mem_cons_iff]
  ccwCycle := by
    rw [hrest.ccwCycle, List.exists_mem_cons_iff, or_iff_right hfetched]
  missing := by
    rw [hrest.missing, h.missing, exists_mem_singleton, or_assoc, List.exists_mem_cons_iff]

/-- The command word of a turn that is not the last one. -/
theorem fetched_of_xferCcw {t : XferTurn} {ccw : Word} {x' : Xfer}
    (h : xferCcw read compare t.currentClp t.x = (some ccw, x')) : ¬t.FetchFails := by
  intro hfails
  have hnot : ¬(mainMemoryRead (t.x.setLastMemoryAddress t.currentClp).memory
      t.currentClp).1 = true := Bool.eq_false_iff.mp hfails
  unfold xferCcw at h
  simp only [if_pos hnot] at h
  cases h

/-- The flags after the loop. -/
theorem flagsTell_performXferLoop (read compare : Bool) (clp : Word) (clpOffset : HalfWord)
    (x : Xfer) : FlagsTell read compare (xferRun read compare clp clpOffset x).1
      x.status.readCompareDifference x.status.nonexistentMemoryError
      (performXferLoop read compare clp clpOffset x).2.status := by
  induction clpOffset, x using xfer_induction read compare clp with
  | step clpOffset x ih =>
    have hturn := flagsTell_xferCcw read compare ⟨clp + clpOffset.setWidth 32, x⟩
    cases turnCases read compare clp clpOffset x with
    | failed x' hccw hrun hresult =>
      rw [hrun, hresult]
      rw [hccw] at hturn
      exact hturn
    | lastCcw ccw x' hccw hlast hrun hresult =>
      rw [hrun, hresult]
      rw [hccw] at hturn
      exact hturn
    | endOfDisk ccw x' hccw hmore hseek hrun hresult =>
      rw [hrun, hresult]
      rw [hccw] at hturn
      exact hturn
    | next ccw x' hccw hmore hseek hrun hresult =>
      rw [hrun, hresult]
      rw [hccw] at hturn
      exact hturn.cons (fetched_of_xferCcw hccw) (ih ccw x' hccw hseek)

/-! ### The status word after START -/

/-- The position is that of the drive, or it exists. -/
def SeekReaches (p : DiskUnit) (cylinder head sector : Word) : Prop :=
  (cylinder = p.cylinder ∧ head = p.head ∧ sector = p.sector) ∨
    (cylinder < p.ncylinders ∧ head < p.nheads ∧ sector < p.nblocksPerTrack)

instance (p : DiskUnit) (cylinder head sector : Word) :
    Decidable (SeekReaches p cylinder head sector) :=
  inferInstanceAs (Decidable (_ ∨ _))

/-- A seek succeeds to the positions that it reaches. -/
theorem diskUnitSeek_eq_true_iff {p : DiskUnit} {cylinder head sector : Word} :
    (diskUnitSeek p cylinder head sector).1 = true ↔ SeekReaches p cylinder head sector := by
  unfold diskUnitSeek SeekReaches
  split_ifs with hsame hcylinder hhead hsector
  · exact iff_of_true rfl (Or.inl hsame)
  · rw [or_iff_right hsame]
    exact iff_of_false not_false fun h => BitVec.not_le.mpr h.1 hcylinder
  · rw [or_iff_right hsame]
    exact iff_of_false not_false fun h => BitVec.not_le.mpr h.2.1 hhead
  · rw [or_iff_right hsame]
    exact iff_of_false not_false fun h => BitVec.not_le.mpr h.2.2 hsector
  · refine iff_of_true rfl (Or.inr ⟨?_, ?_, ?_⟩)
    · exact BitVec.not_le.mp hcylinder
    · exact BitVec.not_le.mp hhead
    · exact BitVec.not_le.mp hsector

namespace DiskGlobals

/-- The seek of a transfer that is started now. -/
def transferSeek (g : DiskGlobals) : Bool × DiskUnit :=
  let a := decodeDa g.da
  diskUnitSeek g.selectedUnit a.1 a.2.1 a.2.2

/-- What a transfer that is started now works on after its seek. -/
def transferStart (g : DiskGlobals) : Xfer :=
  ⟨g.transferSeek.2, g.setStatusActive.status, g.memory⟩

/-- The turns of a transfer that is started now. There are none if its seek fails. -/
def transferRun (read compare : Bool) (g : DiskGlobals) : List XferTurn :=
  if g.transferSeek.1 then (performXferRun read compare g.clp g.transferStart).1 else []

/-- The controller after the requested transfer left this. -/
def completeXfer (g : DiskGlobals) (x : Xfer) : DiskGlobals :=
  setStatusNotActive { g.setUnit g.xferReq.p x.p with
    status := x.status
    memory := x.memory
    da := diskUnitDa x.p
    xferReq := { g.xferReq with ready := false } }

/-- A transfer that is requested, and whose seek succeeds. -/
theorem doXfer_of_seek {g : DiskGlobals} (read compare : Bool) (hseek : g.transferSeek.1 = true) :
    (g.requestXfer read compare).doXfer = (g.requestXfer read compare).completeXfer
      (performXfer read compare g.clp g.transferStart).2 := by
  have hready : (g.requestXfer read compare).xferReq.ready = true := rfl
  have hseek' : diskUnitSeek ((g.requestXfer read compare).diskUnits
      (g.requestXfer read compare).xferReq.p) (g.requestXfer read compare).xferReq.cylinder
      (g.requestXfer read compare).xferReq.head
      (g.requestXfer read compare).xferReq.block = g.transferSeek := rfl
  unfold doXfer
  simp only [if_pos hready, hseek', if_pos hseek]
  rfl

/-- `read` and `compare` of the transfer that START begins, on a unit that is online and can
be written. -/
def startedTransfer (g : DiskGlobals) : Option (Bool × Bool) :=
  if g.resetCondition = false ∧ g.selectedUnit.online = true ∧ g.selectedUnit.readOnly = false then
    if g.cmd &&& 0o17 = 0 then some (true, false)
    else if g.cmd &&& 0o17 = 0o10 then some (true, true)
    else if g.cmd &&& 0o17 = 0o11 then some (false, false)
    else none
  else none

/-- START of a transfer runs it. -/
theorem start_of_startedTransfer {g : DiskGlobals} {read compare : Bool}
    (h : g.startedTransfer = some (read, compare)) (v : Word) :
    g.write true 3 v = .ok (g.requestXfer read compare).doXfer ∧ g.resetCondition = false := by
  unfold startedTransfer at h
  split at h
  case isFalse => cases h
  case isTrue hunit =>
    obtain ⟨hreset, honline, hwritable⟩ := hunit
    refine ⟨?_, hreset⟩
    have hwrite : g.write true 3 v = g.start true := by
      simp [write, hreset]
    have hnot : ¬¬g.selectedUnit.online = true := not_not_intro honline
    rw [hwrite, start, if_neg hnot]
    simp only
    split at h
    · rename_i hcmd
      cases h
      rw [if_pos hcmd]
      rfl
    · rename_i hread
      rw [if_neg hread]
      split at h
      · rename_i hcmd
        cases h
        rw [if_pos hcmd]
        rfl
      · rename_i hcompare
        rw [if_neg hcompare]
        split at h
        · rename_i hcmd
          cases h
          rw [if_pos hcmd, startWrite, hwritable]
          rfl
        · cases h

/-- The flags of the status are clear. -/
def FlagsClear (g : DiskGlobals) : Prop :=
  g.status.readCompareDifference = false ∧ g.status.ccwCycle = false ∧
    g.status.nonexistentMemoryError = false

instance (g : DiskGlobals) : Decidable g.FlagsClear := inferInstanceAs (Decidable (_ ∧ _))

/-- The flags stay when the controller becomes idle. -/
theorem flags_setStatusNotActive (g : DiskGlobals) :
    g.setStatusNotActive.status.readCompareDifference = g.status.readCompareDifference ∧
      g.setStatusNotActive.status.ccwCycle = g.status.ccwCycle ∧
      g.setStatusNotActive.status.nonexistentMemoryError = g.status.nonexistentMemoryError := by
  obtain ⟨interruptRequest, interrupts, hidle⟩ := setStatusNotActive_eq g
  rw [hidle]
  exact ⟨rfl, rfl, rfl⟩

/-- A transfer whose seek succeeds tells what its turns came upon. -/
theorem flagsTell_doXfer {g : DiskGlobals} (read compare : Bool)
    (hseek : g.transferSeek.1 = true) : FlagsTell read compare (g.transferRun read compare)
      false false (g.requestXfer read compare).doXfer.status := by
  have hloop := flagsTell_performXferLoop read compare g.clp 0 g.transferStart.cleared
  rw [doXfer_of_seek read compare hseek, completeXfer, transferRun, if_pos hseek]
  generalize hx : (performXfer read compare g.clp g.transferStart).2 = x
  have hstatus : (performXferLoop read compare g.clp 0 g.transferStart.cleared).2.status =
      x.status := congrArg Xfer.status hx
  rw [hstatus] at hloop
  obtain ⟨hdifference, hcycle, hmissing⟩ := flags_setStatusNotActive
    { (g.requestXfer read compare).setUnit (g.requestXfer read compare).xferReq.p x.p with
      status := x.status
      memory := x.memory
      da := diskUnitDa x.p
      xferReq := { (g.requestXfer read compare).xferReq with ready := false } }
  refine ⟨?_, ?_, ?_⟩
  · rw [hdifference]
    exact hloop.difference
  · rw [hcycle]
    exact hloop.ccwCycle
  · rw [hmissing]
    exact hloop.missing

/-- A transfer whose seek fails leaves the flags. -/
theorem flags_doXfer_of_seek {g : DiskGlobals} (read compare : Bool)
    (hseek : ¬g.transferSeek.1 = true) :
    (g.requestXfer read compare).doXfer.status.readCompareDifference =
        g.status.readCompareDifference ∧
      (g.requestXfer read compare).doXfer.status.ccwCycle = g.status.ccwCycle ∧
      (g.requestXfer read compare).doXfer.status.nonexistentMemoryError =
        g.status.nonexistentMemoryError := by
  have hready : (g.requestXfer read compare).xferReq.ready = true := rfl
  have hseek' : diskUnitSeek ((g.requestXfer read compare).diskUnits
      (g.requestXfer read compare).xferReq.p) (g.requestXfer read compare).xferReq.cylinder
      (g.requestXfer read compare).xferReq.head
      (g.requestXfer read compare).xferReq.block = g.transferSeek := rfl
  unfold doXfer
  simp only [if_pos hready, hseek', if_neg hseek]
  exact flags_setStatusNotActive
    { (g.requestXfer read compare).setUnit (g.requestXfer read compare).xferReq.p
        g.transferSeek.2 with
      xferReq := { (g.requestXfer read compare).xferReq with ready := false } }

/-- A transfer leaves the reset condition. -/
theorem resetCondition_doXfer (g : DiskGlobals) (read compare : Bool) :
    (g.requestXfer read compare).doXfer.resetCondition = g.resetCondition := by
  rw [(g.requestXfer read compare).lineEffect_doXfer.reset]
  rfl

end DiskGlobals

/-- The status word tells what the turns of a transfer came upon. -/
structure StatusTells (read compare : Bool) (run : List XferTurn) (word : Word) : Prop where
  difference : word.getLsbD 22 = true ↔ ∃ t ∈ run, t.Differs read compare
  ccwCycle : word.getLsbD 21 = true ↔ ∃ t ∈ run, t.FetchFails
  missing : word.getLsbD 20 = true ↔ ∃ t ∈ run, t.FetchFails ∨ t.PageMissing read

/-- The status word shows the flags. -/
theorem statusTells_encodeStatus {run : List XferTurn} {g : DiskGlobals} :
    StatusTells read compare run g.encodeStatus ↔
      FlagsTell read compare run false false g.status := by
  have herrors := g.statusErrors_encodeStatus
  have hdifference : g.encodeStatus.getLsbD 22 = g.status.readCompareDifference :=
    congrArg StatusErrors.readCompareDifference herrors
  have hcycle : g.encodeStatus.getLsbD 21 = g.status.ccwCycle :=
    congrArg StatusErrors.ccwCycle herrors
  have hmissing : g.encodeStatus.getLsbD 20 = g.status.nonexistentMemoryError :=
    congrArg StatusErrors.nonexistentMemoryError herrors
  constructor
  · rintro ⟨h22, h21, h20⟩
    refine ⟨?_, hcycle ▸ h21, ?_⟩
    · rw [← hdifference, h22, or_iff_right Bool.false_ne_true]
    · rw [← hmissing, h20, or_iff_right Bool.false_ne_true]
  · rintro ⟨h22, h21, h20⟩
    refine ⟨?_, hcycle.symm ▸ h21, ?_⟩
    · rw [hdifference, h22, or_iff_right Bool.false_ne_true]
    · rw [hmissing, h20, or_iff_right Bool.false_ne_true]

/-- Clear flags tell of no turns. -/
theorem flagsTell_nil {g : DiskGlobals} :
    FlagsTell read compare [] false false g.status ↔ g.FlagsClear := by
  have hnone (P : XferTurn → Prop) : ¬∃ t ∈ ([] : List XferTurn), P t :=
    fun ⟨_, ht, _⟩ => List.not_mem_nil ht
  have hclear (P : XferTurn → Prop) : ¬(false = true ∨ ∃ t ∈ ([] : List XferTurn), P t) :=
    not_or.mpr ⟨Bool.false_ne_true, hnone P⟩
  constructor
  · rintro ⟨hdifference, hcycle, hmissing⟩
    refine ⟨?_, ?_, ?_⟩
    · exact Bool.eq_false_iff.mpr (mt hdifference.mp (hclear _))
    · exact Bool.eq_false_iff.mpr (mt hcycle.mp (hnone _))
    · exact Bool.eq_false_iff.mpr (mt hmissing.mp (hclear _))
  · rintro ⟨hdifference, hcycle, hmissing⟩
    refine ⟨?_, ?_, ?_⟩
    · exact iff_of_false (Bool.eq_false_iff.mp hdifference) (hclear _)
    · exact iff_of_false (Bool.eq_false_iff.mp hcycle) (hnone _)
    · exact iff_of_false (Bool.eq_false_iff.mp hmissing) (hclear _)

/-- The status word tells of a transfer that was started, if its seek succeeded or the flags were
clear before. -/
theorem statusTells_doXfer (g : DiskGlobals) (read compare : Bool) :
    StatusTells read compare (g.transferRun read compare)
        (g.requestXfer read compare).doXfer.encodeStatus ↔
      g.transferSeek.1 = true ∨ g.FlagsClear := by
  rw [statusTells_encodeStatus]
  by_cases hseek : g.transferSeek.1 = true
  · exact iff_of_true (DiskGlobals.flagsTell_doXfer read compare hseek) (Or.inl hseek)
  · obtain ⟨hdifference, hcycle, hmissing⟩ :=
      DiskGlobals.flags_doXfer_of_seek read compare hseek
    have hrun : g.transferRun read compare = [] := if_neg hseek
    rw [or_iff_right hseek, hrun, flagsTell_nil, DiskGlobals.FlagsClear, DiskGlobals.FlagsClear,
      hdifference, hcycle, hmissing]

/-- An access from the processor: a write of a register of the controller, or stores that leave
this memory. -/
inductive StatusAccess
  /-- `disk_controller_write`. -/
  | write (offset v : Word)
  /-- Stores. -/
  | store (memory : MainMemory)

namespace StatusAccess

/-- An access in the blocking build. -/
def step : StatusAccess → DiskGlobals → Except ErrCall DiskGlobals
  | .write offset v, g => g.write true offset v
  | .store memory, g => .ok { g with memory := memory }

/-- START of a transfer leaves a status word that tells what this transfer came upon. -/
def StatusLaw (e : StatusAccess) (g : DiskGlobals) : Prop :=
  ∀ v read compare, e = .write 3 v → g.startedTransfer = some (read, compare) →
    ∀ g', step e g = .ok g' → ∃ word, g'.read 0 = .ok word ∧
      StatusTells read compare (g.transferRun read compare) word

/-- START of a transfer finds a disk address that the seek reaches, or clear flags. -/
def SeeksOrClear (e : StatusAccess) (g : DiskGlobals) : Prop :=
  ∀ v, e = .write 3 v → g.startedTransfer ≠ none →
    SeekReaches g.selectedUnit (decodeDa g.da).1 (decodeDa g.da).2.1 (decodeDa g.da).2.2 ∨
      g.FlagsClear

/-- START keeps the law if and only if it seeks or finds clear flags. -/
theorem statusLaw_iff {e : StatusAccess} {g : DiskGlobals} : StatusLaw e g ↔ SeeksOrClear e g := by
  have hword {read compare : Bool} (v : Word)
      (hstart : g.startedTransfer = some (read, compare)) :
      (g.requestXfer read compare).doXfer.read 0 =
        .ok (g.requestXfer read compare).doXfer.encodeStatus := by
    obtain ⟨-, hreset⟩ := DiskGlobals.start_of_startedTransfer hstart v
    unfold DiskGlobals.read
    rw [g.resetCondition_doXfer, hreset]
    rfl
  have hseek : g.transferSeek.1 = true ↔ SeekReaches g.selectedUnit (decodeDa g.da).1
      (decodeDa g.da).2.1 (decodeDa g.da).2.2 := diskUnitSeek_eq_true_iff
  constructor
  · intro hlaw v he hstarted
    obtain ⟨⟨read, compare⟩, hstart⟩ := Option.ne_none_iff_exists'.mp hstarted
    obtain ⟨hwrite, -⟩ := DiskGlobals.start_of_startedTransfer hstart v
    have hstep : step e g = .ok (g.requestXfer read compare).doXfer := by
      rw [he]
      exact hwrite
    obtain ⟨word, hread, htells⟩ := hlaw v read compare he hstart _ hstep
    rw [hword v hstart] at hread
    cases hread
    rw [← hseek]
    exact (statusTells_doXfer g read compare).mp htells
  · intro hcondition v read compare he hstart g' hstep
    obtain ⟨hwrite, -⟩ := DiskGlobals.start_of_startedTransfer hstart v
    have hstarted : g.startedTransfer ≠ none := Option.ne_none_iff_exists'.mpr ⟨_, hstart⟩
    rw [he, step, hwrite] at hstep
    cases hstep
    refine ⟨_, hword v hstart, (statusTells_doXfer g read compare).mpr ?_⟩
    rw [hseek]
    exact hcondition v he hstarted

end StatusAccess

open StatusAccess in
/-- In every run, the status word after each START of a transfer tells what that transfer came
upon, if and only if each START of a transfer finds a disk address that the seek reaches or clear
flags. -/
theorem status_of_last_transfer (accesses : List StatusAccess) (g : DiskGlobals) :
    EveryStep step StatusLaw accesses g ↔ EveryStep step SeeksOrClear accesses g :=
  everyStep_iff (I := fun _ => True) (fun _ _ _ _ _ => statusLaw_iff)
    (fun _ _ _ _ _ _ => trivial) trivial

/-- A transfer whose first command word is in no page does nothing else. -/
theorem performXfer_of_fetchFails
    (h : (xferCcw read compare (clp + (0 : HalfWord).setWidth 32) x.cleared).1 = none) :
    performXfer read compare clp x =
      (false, (xferCcw read compare (clp + (0 : HalfWord).setWidth 32) x.cleared).2) := by
  unfold performXfer
  rw [performXferLoop]
  simp only
  rw [show ({ x with status := _ } : Xfer) = x.cleared from rfl, h]

/-- A controller of drives, without memory. -/
def noMemory : DiskGlobals := .init (fun _ => emptyDrive) ⟨0, fun _ _ => 0⟩

/-- The controller after START of a read, whose command list is nowhere. -/
def listMissed : DiskGlobals :=
  (noMemory.requestXfer true false).completeXfer
    (xferCcw true false 0 noMemory.transferStart.cleared).2

/-- START of the read. -/
theorem write_noMemory : noMemory.write true 3 0 = .ok listMissed := by
  have hstart : noMemory.startedTransfer = some (true, false) := by decide
  have hseek : noMemory.transferSeek.1 = true := by decide
  have hfails : performXfer true false noMemory.clp noMemory.transferStart =
      (false, (xferCcw true false 0 noMemory.transferStart.cleared).2) :=
    performXfer_of_fetchFails (by decide)
  rw [(DiskGlobals.start_of_startedTransfer hstart 0).1,
    DiskGlobals.doXfer_of_seek true false hseek, hfails, listMissed]

open StatusAccess in
/-- A transfer whose command list is nowhere leaves its memory error to one with a cylinder that
does not exist. -/
theorem not_status_of_last_transfer :
    ¬∀ accesses : List StatusAccess, EveryStep step StatusLaw accesses noMemory := by
  intro h
  obtain ⟨-, hrest⟩ := h [.write 3 0, .write 2 0x0FFF0000, .write 3 0] _ write_noMemory
  obtain ⟨-, hrest⟩ := hrest { listMissed with da := 0x0FFF0000 } rfl
  obtain ⟨hlaw, -⟩ := hrest _ rfl
  rcases statusLaw_iff.mp hlaw 0 rfl (by decide) with hseek | hclear
  · exact absurd hseek (by decide)
  · exact absurd hclear (by decide)

end Usim
